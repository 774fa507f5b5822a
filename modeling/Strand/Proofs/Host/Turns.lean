import Strand.Proofs.Channel.Parking
import Strand.Proofs.Host.Handover

/-! The calls in progress on a channel. Each of them acts on the channel alone: what its turn comes
to, and what the channel is afterwards, depends on nothing else in the host. A party is parked only
on the channel that it waits for in the call it has in progress. -/
namespace Strand

namespace Activity

/-- The channel that a call in progress has found. -/
def channel? : Activity → Option Nat
  | .sending n _ | .receiving n | .receivingInto n _ | .closing n | .askingForData n
  | .askingWhetherClosed n => some n
  | _ => none

/-- Whether a call in progress may have to wait for its channel. -/
def mayWait : Activity → Bool
  | .sending _ _ | .receiving _ | .receivingInto _ _ => true
  | _ => false

/-- What a turn comes to on a channel by itself: the reply of the call, unless its party has to
wait, and the channel after it. -/
def act (s : Shared Party Int64) (who : Party) (pick : Nat) :
    Activity → Option Reply × Shared Party Int64
  | .sending _ value =>
    let (turn, s) := s.send who value pick
    (turn.result.map fun _ => .nothing, s)
  | .receiving _ =>
    let (turn, s) := s.receive who pick
    (turn.result.map fun value => .code (value.getD 0), s)
  | .receivingInto _ out =>
    let (turn, s) := s.receive who pick
    (turn.result.map fun value => .tagged value.isSome (some (value.getD out)), s)
  | .closing _ =>
    let (turn, s) := s.close
    (turn.result.map fun _ => .nothing, s)
  | .askingForData _ => (some (.flag s.channel.hasData), s)
  | .askingWhetherClosed _ => (some (.flag s.channel.closed), s)
  | _ => (none, s)

end Activity

/-- The runs of one channel by itself, with the turns that parties take on it and their replies. A
party that is parked takes none. -/
inductive Solo (capacity : Nat) :
    List (Party × Activity × Option Reply) → Shared Party Int64 → Prop
  | start : Solo capacity [] (.ofChannel (.ofCapacity capacity))
  | turn {history s} (solo : Solo capacity history s) {who : Party} (ready : who ∉ s.parked)
    (a : Activity) (pick : Nat) :
    Solo capacity (history ++ [(who, a, (a.act s who pick).1)]) (a.act s who pick).2

namespace Shared
variable {s : Shared Party Int64} {who k : Party} {value : Int64} {pick : Nat}

/-- A send parks its sender if it does not come to a result, and nobody else. -/
lemma parked_send (h : k ∈ (s.send who value pick).2.parked) :
    k ∈ s.parked ∨ k = who ∧ (s.send who value pick).1.result = none := by
  unfold send at h ⊢
  split at h
  · simp only [parked, List.mem_append, List.mem_singleton] at h ⊢
    tauto
  · exact .inl h
  · have hwoken := (wakeOne_sublist s.receivers pick).subset
    simp only [parked, List.mem_append] at h ⊢
    exact .inl (h.imp_right fun hmem => hwoken hmem)

lemma parked_receive (h : k ∈ (s.receive who pick).2.parked) :
    k ∈ s.parked ∨ k = who ∧ (s.receive who pick).1.result = none := by
  unfold receive at h ⊢
  split at h
  · simp only [parked, List.mem_append, List.mem_singleton] at h ⊢
    tauto
  · exact .inl h
  · have hwoken := (wakeOne_sublist s.senders pick).subset
    simp only [parked, List.mem_append] at h ⊢
    exact .inl (h.imp_left fun hmem => hwoken hmem)

end Shared

namespace Host
variable {p : Host} {who k : Party} {n : Nat} {s : Shared Party Int64} {a : Activity}

lemma parked_act {pick : Nat} (h : k ∈ (a.act s who pick).2.parked) :
    k ∈ s.parked ∨ k = who ∧ (a.act s who pick).1 = none ∧ a.mayWait = true := by
  cases a with
  | sending _ value =>
    refine (Shared.parked_send h).imp_right fun ⟨hk, hnone⟩ => ⟨hk, ?_, rfl⟩
    exact Option.map_eq_none_iff.mpr hnone
  | receiving | receivingInto =>
    refine (Shared.parked_receive h).imp_right fun ⟨hk, hnone⟩ => ⟨hk, ?_, rfl⟩
    exact Option.map_eq_none_iff.mpr hnone
  | closing => cases h
  | _ => exact .inl h

/-- The host after a turn of `who` on the channel `n`. -/
def afterTurn (p : Host) (who : Party) (n : Nat) (came : Option Reply × Shared Party Int64) :
    Host :=
  { p with
    made := p.made.set n came.2
    busy := if came.1.isSome then p.busyAfter who none else p.busy }

lemma turn_ready {ρ : Type} {reply : ρ → Reply}
    {f : Shared Party Int64 → Turn Party ρ × Shared Party Int64} (there : p.made[n]? = some s)
    (ready : who ∉ s.parked) :
    p.turn who n reply f = some
      ⟨p.afterTurn who n ((f s).1.result.map reply, (f s).2), (f s).1.events.map Channel.Event.line,
        (f s).1.result.map reply⟩ := by
  simp only [turn, there, List.contains_iff_mem, if_neg ready]
  cases (f s).1.result <;> rfl

lemma turn_parked {ρ : Type} {reply : ρ → Reply}
    {f : Shared Party Int64 → Turn Party ρ × Shared Party Int64} (there : p.made[n]? = some s)
    (parked : who ∈ s.parked) : p.turn who n reply f = none := by
  simp only [turn, there, List.contains_iff_mem, if_pos parked]

lemma look_eq {see : Channel Int64 → Bool} (there : p.made[n]? = some s) :
    p.look who n see = some
      ⟨p.afterTurn who n (some (.flag (see s.channel)), s), [], some (.flag (see s.channel))⟩ := by
  simp only [look, there, Option.map_some, afterTurn, set_eq_self there]
  rfl

/-- A party that is not parked takes its turn on the channel it has found, and changes no other. -/
theorem continue_ready (on : a.channel? = some n) (there : p.made[n]? = some s)
    (ready : who ∉ s.parked) (chance : Chance) :
    ∃ lines, p.continue? who chance a = some
      ⟨p.afterTurn who n (a.act s who chance.pick), lines, (a.act s who chance.pick).1⟩ := by
  cases a with
  | sending | receiving | receivingInto =>
    cases on
    exact ⟨_, turn_ready there ready⟩
  | closing =>
    cases on
    simp only [continue?]
    exact ⟨_, turn_ready there ready⟩
  | askingForData | askingWhetherClosed =>
    cases on
    exact ⟨_, look_eq there⟩
  | launching | enrolling | removing | joining => cases on

/-- A parked party has to wait. -/
theorem continue_parked (on : a.channel? = some n) (there : p.made[n]? = some s)
    (waits : a.mayWait = true) (parked : who ∈ s.parked) (chance : Chance) :
    p.continue? who chance a = none := by
  cases a with
  | sending | receiving | receivingInto =>
    cases on
    exact turn_parked there parked
  | _ => cases waits

/-- A step of `who` that passes all channels by, and their handles. -/
structure Aside (p : Host) (who : Party) (p' : Host) : Prop where
  channels : p'.channels = p.channels
  made : p'.made = p.made
  busy : p'.busy = p.busy ∨
    ∃ more, p'.busy = p.busyAfter who more ∧ ∀ a, more = some a → a.channel? = none

variable {q : Host} {lines : List Log.Line} {chance : Chance} {effect : Effect}

lemma aside_answer (channels : q.channels = p.channels) (made : q.made = p.made)
    (busy : q.busy = p.busy) (reply : Reply) : Aside p who (q.answer who lines reply).host where
  channels := channels
  made := made
  busy := .inr ⟨none, by simp [answer, busyAfter, busy], by simp⟩

lemma aside_proceed (channels : q.channels = p.channels) (made : q.made = p.made)
    (busy : q.busy = p.busy) (off : a.channel? = none) :
    Aside p who (q.proceed who lines a).host where
  channels := channels
  made := made
  busy := .inr ⟨some a, by simp [proceed, busyAfter, busy], by simpa using off⟩

lemma aside_reject (p : Host) (who : Party) (pick : Nat) (text : String) :
    Aside p who (p.reject who pick text).host := by
  simp only [reject]
  cases p.crewed.1.settings.invalidJoin <;>
  · apply aside_answer <;> rfl

end Host

/-- The calls that name no channel, or give no place to receive into. -/
def Call.isAside {η : Type} : Call η → Bool
  | .newChannel _ | .send _ _ | .receive _ | .receiveTagged _ (some _) | .close _ | .hasData _
  | .isClosed _ | .release _ => false
  | _ => true

namespace Host
variable {p : Host} {who : Party} {a : Activity} {chance : Chance} {effect : Effect}

theorem aside_call (p : Host) (who : Party) (chance : Chance) {c : Call UInt64}
    (haside : c.isAside = true) : Aside p who (p.call who chance c).host := by
  cases c with
  | setError | takeError | hasError | clearError => apply aside_answer <;> rfl
  | receiveTagged _ out =>
    cases out with
    | none => apply aside_answer <;> rfl
    | some => cases haside
  | spawn mode given =>
    cases given with
    | true => apply aside_proceed <;> rfl
    | false => apply aside_answer <;> rfl
  | join h =>
    simp only [call, join]
    split
    · apply aside_answer <;> rfl
    · split
      · exact aside_reject p who _ _
      · split
        · exact aside_reject p who _ _
        · apply aside_proceed <;> rfl
  | sleep | liveCount => apply aside_answer <;> rfl
  | newChannel | send | receive | close | hasData | isClosed | release => cases haside

/-- The calls in progress that have found no channel have to do with a worker. -/
theorem aside_continue (off : a.channel? = none) (h : p.continue? who chance a = some effect) :
    Aside p who effect.host := by
  cases a with
  | launching mode k =>
    cases launch_cases h with
    | goesOn | hands => apply aside_proceed <;> rfl
    | fails | tells => apply aside_answer <;> rfl
  | enrolling k =>
    cases h
    simp only [enroll]
    split <;>
    · apply aside_answer <;> rfl
  | removing raw =>
    simp only [continue?, takeOut] at h
    split at h
    · cases h
      exact aside_reject p who _ _
    · split at h
      · cases h
      · split at h <;> cases h
        · apply aside_proceed <;> rfl
        · apply aside_answer <;> rfl
  | joining k =>
    obtain ⟨⟨crew, report⟩, -, rfl⟩ := Option.map_eq_some_iff.mp h
    apply aside_answer <;> rfl
  | sending | receiving | receivingInto | closing | askingForData | askingWhetherClosed => cases off

/-- A worker that begins, stops or leaves has no part in any channel. -/
lemma crewStep_eq {b : Crew.Action} (h : p.crewStep b = some effect) :
    ∃ crew, effect.host = { p with crew } := by
  obtain ⟨⟨crew, report⟩, -, rfl⟩ := Option.map_eq_some_iff.mp h
  exact ⟨some crew, rfl⟩

end Host
end Strand
