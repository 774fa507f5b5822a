import Strand.Channel.Crowd
import Strand.Proofs.Channel.Ring

/-! What one turn of a caller can do. Every turn is one of seven, told apart by what the job in hand
asks for and by how the channel stands. `Turned` lists them together with the buffered values
before and after; all that is said of whole runs is proved by going through these cases. -/
namespace Strand

namespace Caller
variable {α : Type}

/-- The value that the job in hand has to send. -/
def offer? (c : Caller α) : Option α :=
  match c.jobs.head? with
  | some (.send value) => some value
  | _ => none

/-- Whether the job in hand needs one more value. -/
def isReceiving (c : Caller α) : Bool :=
  match c.jobs.head? with
  | some .receive => true
  | some (.collect limit) => limit ≠ some 0
  | _ => false

/-- What becomes of a caller whose receive comes to some outcome. -/
def receive (c : Caller α) (outcome : Option α) : Caller α :=
  match c.jobs.head?, outcome with
  | some (.collect limit), some value => c.gather limit value
  | some (.collect _), none => c.answer (.collected c.items)
  | _, outcome => c.answer (.received outcome)

lemma head_of_offer {c : Caller α} {value : α} (h : c.offer? = some value) :
    c.jobs.head? = some (.send value) := by
  unfold offer? at h
  split at h
  next hjob => rw [hjob, Option.some.inj h]
  cases h

lemma isReceiving_cases {c : Caller α} (h : c.isReceiving = true) :
    c.jobs.head? = some .receive ∨
      ∃ limit, c.jobs.head? = some (.collect limit) ∧ limit ≠ some 0 := by
  unfold isReceiving at h
  split at h
  next hjob => exact .inl hjob
  next limit hjob => exact .inr ⟨limit, hjob, by simpa using h⟩
  cases h

lemma isReceiving_eq_false_of_offer {c : Caller α} {value : α} (h : c.offer? = some value) :
    c.isReceiving = false := by
  simp [isReceiving, head_of_offer h]

lemma offer_eq_none_of_receiving {c : Caller α} (h : c.isReceiving = true) : c.offer? = none := by
  cases hoffer : c.offer? with
  | none => rfl
  | some value => simp [isReceiving_eq_false_of_offer hoffer] at h

lemma offer_eq_none_of_nil {c : Caller α} (hnil : c.jobs = []) : c.offer? = none := by
  simp [offer?, hnil]

lemma isReceiving_eq_false_of_nil {c : Caller α} (hnil : c.jobs = []) : c.isReceiving = false := by
  simp [isReceiving, hnil]

lemma isFinished_of_head {c : Caller α} {job : Job α} (h : c.jobs.head? = some job) :
    c.isFinished = false := by
  unfold isFinished
  cases hjobs : c.jobs with
  | nil => simp [hjobs] at h
  | cons => rfl

lemma isFinished_of_offer {c : Caller α} (h : c.offer?.isSome = true) : c.isFinished = false := by
  obtain ⟨value, hvalue⟩ := Option.isSome_iff_exists.mp h
  exact isFinished_of_head (head_of_offer hvalue)

lemma isFinished_of_receiving {c : Caller α} (h : c.isReceiving = true) : c.isFinished = false := by
  rcases isReceiving_cases h with hjob | ⟨limit, hjob, -⟩ <;> exact isFinished_of_head hjob

end Caller

/-- What one critical section of a caller completes on the channel. -/
inductive Deed (α : Type)
  | sent (value : α) (result : SendResult α)
  | received (value : Option α)
  deriving DecidableEq, Repr

namespace Deed
variable {α : Type}

/-- The value that a deed puts into the channel. -/
def accepted? : Deed α → Option α
  | .sent value .accepted => some value
  | _ => none

/-- The value that a deed gives back to its sender. -/
def rejected? : Deed α → Option α
  | .sent value (.rejected _) => some value
  | _ => none

/-- The value that a deed hands out to its receiver. -/
def delivered? : Deed α → Option α
  | .received value => value
  | _ => none

end Deed

namespace Crowd
variable {α : Type}

/-- What a turn of `who` completes: the answer that the channel has for the job in hand. -/
def deed? (c : Crowd α) (who : Nat) : Option (Deed α) :=
  match c.callers[who]? with
  | none => none
  | some caller =>
    match caller.offer? with
    | some value => (c.shared.channel.send? value).map fun answer => .sent value answer.1
    | none =>
      if caller.isReceiving then c.shared.channel.receive?.map fun answer => .received answer.1
      else none

/-- The seven turns of a caller `who` on a channel that buffers `xs`: what the turn completes, the
channel and its parked callers after it, the caller after it, and what is buffered then. -/
inductive Turned (s : Shared Nat α) (who pick : Nat) (caller : Caller α) :
    List α → Option (Deed α) → Shared Nat α → Caller α → List α → Prop
  | waitsForRoom {xs value} (job : caller.offer? = some value) (opened : s.channel.closed = false)
      (full : xs.length = s.channel.capacity) :
      Turned s who pick caller xs none { s with senders := s.senders ++ [who] } caller xs
  | turnedAway {xs value} (job : caller.offer? = some value) (closed : s.channel.closed = true) :
      Turned s who pick caller xs (some (.sent value (.rejected value)))
        { s with channel := { s.channel with rejected := s.channel.rejected + 1 } }
        (caller.answer (.sent (.rejected value))) xs
  | sends {xs value} (job : caller.offer? = some value) (opened : s.channel.closed = false)
      (room : xs.length < s.channel.capacity) :
      Turned s who pick caller xs (some (.sent value .accepted))
        { s with
          channel := { s.channel with ring := s.channel.ring.push value }
          receivers := (wakeOne s.receivers pick).2 }
        (caller.answer (.sent .accepted)) (xs ++ [value])
  | waitsForValue (job : caller.isReceiving = true) (opened : s.channel.closed = false) :
      Turned s who pick caller [] none { s with receivers := s.receivers ++ [who] } caller []
  | findsEnd (job : caller.isReceiving = true) (closed : s.channel.closed = true) :
      Turned s who pick caller [] (some (.received none)) s (caller.receive none) []
  | takes {x xs} (job : caller.isReceiving = true) :
      Turned s who pick caller (x :: xs) (some (.received (some x)))
        { s with
          channel := { s.channel with ring := s.channel.ring.pop.2 }
          senders := (wakeOne s.senders pick).2 }
        (caller.receive (some x)) xs
  | skips {xs} (job : caller.jobs.head? = some (.collect (some 0))) :
      Turned s who pick caller xs none s (caller.answer (.collected [])) xs

lemma isReady_iff {c : Crowd α} {who : Nat} :
    c.isReady who = true ↔
      ∃ caller, c.callers[who]? = some caller ∧ caller.isFinished = false ∧
        who ∉ c.shared.parked := by
  unfold isReady
  split
  · next h => simp [h]
  · next caller h => simp [h]

lemma update_eq_set {c : Crowd α} {who : Nat} {caller : Caller α}
    (h : c.callers[who]? = some caller) (shared : Shared Nat α) (f : Caller α → Caller α) :
    c.update who shared f = ⟨shared, c.callers.set who (f caller)⟩ := by
  rw [update, List.modify_eq_set_getElem?, h]
  rfl

end Crowd

namespace Channel
variable {α : Type} {c : Channel α} {x : α} {xs : List α}

lemma send?_closed (h : c.closed = true) (value : α) :
    c.send? value = some (.rejected value, { c with rejected := c.rejected + 1 }) := by
  rw [send?, if_pos h]

lemma send?_full (holds : c.ring.Holds xs) (h : c.closed = false) (full : xs.length = c.capacity)
    (value : α) : c.send? value = none := by
  have hf : c.ring.isFull = true := by
    rw [Ring.isFull, holds.len_eq]
    exact beq_iff_eq.mpr full
  rw [send?, if_neg (by simp [h]), if_pos hf]

lemma send?_room (holds : c.ring.Holds xs) (h : c.closed = false) (room : xs.length < c.capacity)
    (value : α) : c.send? value = some (.accepted, { c with ring := c.ring.push value }) := by
  have hf : ¬c.ring.isFull = true := by
    rw [Ring.isFull, holds.len_eq, beq_iff_eq]
    exact Nat.ne_of_lt room
  rw [send?, if_neg (by simp [h]), if_neg hf]

lemma receive?_waits (holds : c.ring.Holds []) (h : c.closed = false) : c.receive? = none := by
  have he : c.ring.isEmpty = true := by simp [Ring.isEmpty, holds.len_eq]
  rw [receive?, he, h]
  rfl

lemma receive?_ended (holds : c.ring.Holds []) (h : c.closed = true) :
    c.receive? = some (none, c) := by
  rw [receive?, holds.pop_nil, if_neg (by simp [h])]

lemma receive?_cons (holds : c.ring.Holds (x :: xs)) :
    c.receive? = some (some x, { c with ring := c.ring.pop.2 }) := by
  rw [receive?, holds.isEmpty_cons, holds.pop_fst]
  rfl

end Channel

namespace Crowd
variable {α : Type} {c d : Crowd α} {who pick : Nat} {caller : Caller α} {xs : List α}

/-- A sender's turn is one of three. -/
lemma turned_of_send (pick : Nat) {value : α} (holds : c.shared.channel.ring.Holds xs)
    (hcaller : c.callers[who]? = some caller) (job : caller.offer? = some value) :
    ∃ result s ys, Turned c.shared who pick caller xs (c.deed? who) s
        (match result with
          | none => caller
          | some result => caller.answer (.sent result)) ys ∧
      (c.shared.send who value pick).1.result = result ∧ (c.shared.send who value pick).2 = s := by
  have hdeed : c.deed? who =
      (c.shared.channel.send? value).map fun answer => .sent value answer.1 := by
    simp only [deed?, hcaller, job]
  cases hclosed : c.shared.channel.closed with
  | true =>
    have hs := Channel.send?_closed hclosed value
    rw [hdeed, Shared.send, hs]
    exact ⟨_, _, _, .turnedAway job hclosed, rfl, rfl⟩
  | false =>
    rcases Nat.lt_or_eq_of_le holds.length_le with room | full
    · have hs := Channel.send?_room holds hclosed room value
      rw [hdeed, Shared.send, hs]
      exact ⟨_, _, _, .sends job hclosed room, rfl, rfl⟩
    · have hs := Channel.send?_full holds hclosed full value
      rw [hdeed, Shared.send, hs]
      exact ⟨_, _, _, .waitsForRoom job hclosed full, rfl, rfl⟩

/-- A receiver's turn is one of three, too. -/
lemma turned_of_receive (pick : Nat) (holds : c.shared.channel.ring.Holds xs)
    (hcaller : c.callers[who]? = some caller) (job : caller.isReceiving = true) :
    ∃ result s ys, Turned c.shared who pick caller xs (c.deed? who) s
        (match result with
          | none => caller
          | some value => caller.receive value) ys ∧
      (c.shared.receive who pick).1.result = result ∧ (c.shared.receive who pick).2 = s := by
  have hdeed : c.deed? who =
      c.shared.channel.receive?.map fun answer => .received answer.1 := by
    simp only [deed?, hcaller, Caller.offer_eq_none_of_receiving job, job, if_true]
  cases xs with
  | nil =>
    cases hclosed : c.shared.channel.closed with
    | true =>
      have hr := Channel.receive?_ended holds hclosed
      rw [hdeed, Shared.receive, hr]
      exact ⟨_, _, _, .findsEnd job hclosed, rfl, rfl⟩
    | false =>
      have hr := Channel.receive?_waits holds hclosed
      rw [hdeed, Shared.receive, hr]
      exact ⟨_, _, _, .waitsForValue job hclosed, rfl, rfl⟩
  | cons x xs =>
    have hr := Channel.receive?_cons holds
    rw [hdeed, Shared.receive, hr]
    exact ⟨_, _, _, .takes job, rfl, rfl⟩

/-- Whatever a turn does is listed in `Turned`, and only callers that are not parked take turns. -/
theorem turn_cases {events : List Channel.Event} (holds : c.shared.channel.ring.Holds xs)
    (h : c.turn who pick = some (d, events)) :
    ∃ caller s caller' ys, c.callers[who]? = some caller ∧ caller.isFinished = false ∧
      who ∉ c.shared.parked ∧ Turned c.shared who pick caller xs (c.deed? who) s caller' ys ∧
      d = ⟨s, c.callers.set who caller'⟩ := by
  unfold turn at h
  split at h
  · cases h
  next hready =>
  obtain ⟨caller, hcaller, hunfinished, hparked⟩ := isReady_iff.mp (by simpa using hready)
  have hset := update_eq_set hcaller
  refine ⟨caller, ?_⟩
  simp only [hcaller, Option.bind_some] at h
  cases hjob : caller.jobs.head? with
  | none => simp [hjob] at h
  | some job =>
    cases job with
    | send value =>
      have hoffer : caller.offer? = some value := by simp [Caller.offer?, hjob]
      obtain ⟨result, s, ys, hturned, hresult, hs⟩ := turned_of_send pick holds hcaller hoffer
      refine ⟨s, _, ys, hcaller, hunfinished, hparked, hturned, ?_⟩
      simp only [hjob, hresult, hs, hset] at h
      cases result <;> cases h <;> rfl
    | receive =>
      obtain ⟨result, s, ys, hturned, hresult, hs⟩ :=
        turned_of_receive pick holds hcaller (by simp [Caller.isReceiving, hjob])
      refine ⟨s, _, ys, hcaller, hunfinished, hparked, hturned, ?_⟩
      simp only [hjob, hresult, hs, hset] at h
      cases result <;> cases h <;> simp [Caller.receive, hjob]
    | collect limit =>
      by_cases hzero : limit = some 0
      · subst hzero
        simp only [hjob, hset] at h
        cases h
        have hdeed : c.deed? who = none := by
          simp [deed?, hcaller, Caller.offer?, Caller.isReceiving, hjob]
        rw [hdeed]
        exact ⟨_, _, _, hcaller, hunfinished, hparked, .skips hjob, rfl⟩
      · obtain ⟨result, s, ys, hturned, hresult, hs⟩ :=
          turned_of_receive pick holds hcaller (by simp [Caller.isReceiving, hjob, hzero])
        refine ⟨s, _, ys, hcaller, hunfinished, hparked, hturned, ?_⟩
        rcases limit with _ | _ | n
        · simp only [hjob, hresult, hs, hset] at h
          rcases result with _ | _ | x <;> cases h <;> simp [Caller.receive, hjob]
        · exact absurd rfl hzero
        · simp only [hjob, hresult, hs, hset] at h
          rcases result with _ | _ | x <;> cases h <;> simp [Caller.receive, hjob]

theorem Turned.holds {s t : Shared Nat α} {deed : Option (Deed α)} {caller' : Caller α}
    {ys : List α} (h : Turned s who pick caller xs deed t caller' ys)
    (holds : s.channel.ring.Holds xs) :
    t.channel.ring.Holds ys := by
  cases h with
  | sends _ _ room => exact holds.push room _
  | takes _ => exact holds.pop_snd
  | _ => exact holds

section
variable {s t : Shared Nat α} {deed : Option (Deed α)} {caller' : Caller α} {ys : List α}

lemma Turned.unfinished (h : Turned s who pick caller xs deed t caller' ys) :
    caller.isFinished = false := by
  cases h with
  | waitsForRoom job | turnedAway job | sends job =>
    exact Caller.isFinished_of_offer (by rw [job]; rfl)
  | waitsForValue job | findsEnd job | takes job => exact Caller.isFinished_of_receiving job
  | skips job => exact Caller.isFinished_of_head job

lemma Turned.capacity_eq (h : Turned s who pick caller xs deed t caller' ys) :
    t.channel.capacity = s.channel.capacity := by
  cases h with
  | sends => exact Ring.capacity_push _ _
  | takes => exact Ring.capacity_pop _
  | _ => rfl

/-- A turn conserves values: what was buffered and what it puts in is what it takes out and what is
buffered then, in this order. -/
theorem Turned.conserves (h : Turned s who pick caller xs deed t caller' ys) :
    xs ++ (deed.bind Deed.accepted?).toList = (deed.bind Deed.delivered?).toList ++ ys := by
  cases h <;> simp [Deed.accepted?, Deed.delivered?]

lemma Turned.sent_eq (h : Turned s who pick caller xs deed t caller' ys) :
    t.channel.ring.sent = s.channel.ring.sent + (deed.bind Deed.accepted?).toList.length := by
  cases h with
  | takes => exact Ring.sent_pop _
  | _ => rfl

lemma Turned.received_eq (h : Turned s who pick caller xs deed t caller' ys)
    (holds : s.channel.ring.Holds xs) :
    t.channel.ring.received =
      s.channel.ring.received + (deed.bind Deed.delivered?).toList.length := by
  cases h with
  | takes => exact holds.received_pop
  | _ => rfl

lemma Turned.rejected_eq (h : Turned s who pick caller xs deed t caller' ys) :
    t.channel.rejected = s.channel.rejected + (deed.bind Deed.rejected?).toList.length := by
  cases h <;> rfl

end

end Crowd
end Strand
