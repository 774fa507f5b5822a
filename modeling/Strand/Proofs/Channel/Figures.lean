import Strand.Proofs.Channel.Closing

/-! The figures of a channel at rest. When every caller comes with one send or one receive, each
call is accepted, served, turned away or still in hand, so all calls are accounted for. At rest the
account has one solution only: the figures depend on how many calls there were before and after
the close, and neither on their order nor on who was woken. -/
namespace Strand

/-- The jobs of a caller that comes with a single call. -/
inductive IsSingle {α : Type} : List (Job α) → Prop
  | send (value : α) : IsSingle [.send value]
  | receive : IsSingle [.receive]

instance {α : Type} (jobs : List (Job α)) : Decidable (IsSingle jobs) :=
  match jobs with
  | [.send value] => isTrue (.send value)
  | [.receive] => isTrue .receive
  | [] | [.collect _] | _ :: _ :: _ => isFalse nofun

/-- Whether a deed is a receive that came to nothing. -/
def Deed.ended? {α : Type} : Deed α → Option Unit
  | .received none => some ()
  | _ => none

namespace History
variable {α : Type}

/-- How many callers came with a single send. -/
def sends (history : List (Occurrence α)) : Nat :=
  (programs history).countP fun
    | [.send _] => true
    | _ => false

/-- How many callers came with a single receive. -/
def receives (history : List (Occurrence α)) : Nat :=
  (programs history).countP fun
    | [.receive] => true
    | _ => false

/-- The receivers that were told of the end of the channel. -/
def ended (history : List (Occurrence α)) : List (Nat × Unit) := select Deed.ended? history

variable (h k : List (Occurrence α))

@[simp] lemma sends_append : sends (h ++ k) = sends h + sends k := by simp [sends]

@[simp] lemma receives_append : receives (h ++ k) = receives h + receives k := by simp [receives]

@[simp] lemma sends_entry (who : Nat) (deed : Option (Deed α)) : sends (entry who deed) = 0 := by
  simp [sends]

@[simp] lemma receives_entry (who : Nat) (deed : Option (Deed α)) :
    receives (entry who deed) = 0 := by
  simp [receives]

/-- Joining completes nothing. -/
lemma select_joined {β : Type} (f : Deed α → Option β) (jobs : List (Job α)) :
    select f (h ++ [.joined jobs]) = select f h := by
  rw [select_append]
  exact List.append_nil _

/-- Nor does a close complete anything of a caller's. -/
lemma select_closed {β : Type} (f : Deed α → Option β) (changed : Bool) :
    select f (h ++ [.closed changed]) = select f h := by
  rw [select_append]
  exact List.append_nil _

lemma ended_eq_nil {h : List (Occurrence α)} (hnone : ∀ who, .did who (.received none) ∉ h) :
    ended h = [] := by
  rw [ended, select, List.filterMap_eq_nil_iff]
  intro occurrence hmem
  cases occurrence with
  | joined | closed => rfl
  | did who deed =>
    cases deed with
    | sent => rfl
    | received value =>
      cases value with
      | none => exact absurd hmem (hnone who)
      | some => rfl

end History

open History

namespace Crowd
variable {α : Type} {history before later : List (Occurrence α)} {c d : Crowd α}
  {capacity n : Nat}

/-- Callers that come with single calls have their call in hand until it is over. -/
def InHand (caller : Caller α) : Prop := caller.jobs = [] ∨ IsSingle caller.jobs

section
variable {s t : Shared Nat α} {who pick : Nat} {caller caller' : Caller α} {xs ys : List α}
  {deed : Option (Deed α)}

lemma InHand.jobs_eq (inHand : InHand caller) {job : Job α} (h : caller.jobs.head? = some job) :
    caller.jobs = [job] := by
  rcases inHand with hnil | hsingle
  · simp [hnil] at h
  · cases hjobs : caller.jobs with
    | nil => simp [hjobs] at h
    | cons first rest =>
      rw [hjobs] at hsingle h
      cases hsingle <;> cases h <;> rfl

/-- When the call in hand is over, nothing is left. -/
lemma InHand.jobs_answer (inHand : InHand caller) {job : Job α}
    (h : caller.jobs.head? = some job) (a : Answer α) : (caller.answer a).jobs = [] := by
  simp [Caller.answer, inHand.jobs_eq h]

lemma InHand.head_of_receiving (inHand : InHand caller) (h : caller.isReceiving = true) :
    caller.jobs.head? = some .receive := by
  rcases Caller.isReceiving_cases h with hjob | ⟨limit, hjob, -⟩
  · exact hjob
  · rcases inHand with hnil | hsingle
    · simp [hnil] at hjob
    · rw [(show InHand caller from .inr hsingle).jobs_eq hjob] at hsingle
      cases hsingle

lemma InHand.jobs_receive (inHand : InHand caller) (h : caller.isReceiving = true)
    (outcome : Option α) : (caller.receive outcome).jobs = [] := by
  have hjob := inHand.head_of_receiving h
  have hreceive : caller.receive outcome = caller.answer (.received outcome) := by
    simp [Caller.receive, hjob]
  rw [hreceive]
  exact inHand.jobs_answer hjob _

/-- A turn leaves the call in hand as it is, or is its end. -/
lemma InHand.turn (inHand : InHand caller) (h : Turned s who pick caller xs deed t caller' ys) :
    InHand caller' := by
  cases h with
  | waitsForRoom | waitsForValue => exact inHand
  | turnedAway job | sends job => exact .inl (inHand.jobs_answer (Caller.head_of_offer job) _)
  | findsEnd job | takes job => exact .inl (inHand.jobs_receive job _)
  | skips job => exact .inl (inHand.jobs_answer job _)

/-- A send in hand stays in hand, or it is accepted or turned away. -/
lemma Turned.sends_eq (inHand : InHand caller)
    (h : Turned s who pick caller xs deed t caller' ys) :
    (deed.bind Deed.accepted?).toList.length + (deed.bind Deed.rejected?).toList.length +
      caller'.offer?.isSome.toNat = caller.offer?.isSome.toNat := by
  cases h with
  | waitsForRoom | waitsForValue => exact Nat.zero_add _
  | turnedAway job | sends job =>
    have hnil := inHand.jobs_answer (Caller.head_of_offer job)
    rw [Caller.offer_eq_none_of_nil (hnil _), job]
    rfl
  | findsEnd job | takes job =>
    rw [Caller.offer_eq_none_of_nil (inHand.jobs_receive job _),
      Caller.offer_eq_none_of_receiving job]
    rfl
  | skips job =>
    have hoffer : caller.offer? = none := by simp [Caller.offer?, job]
    rw [Caller.offer_eq_none_of_nil (inHand.jobs_answer job _), hoffer]
    rfl

/-- A receive in hand stays in hand, or it is handed a value or told of the end. -/
lemma Turned.receives_eq (inHand : InHand caller)
    (h : Turned s who pick caller xs deed t caller' ys) :
    (deed.bind Deed.delivered?).toList.length + (deed.bind Deed.ended?).toList.length +
      caller'.isReceiving.toNat = caller.isReceiving.toNat := by
  cases h with
  | waitsForRoom | waitsForValue => exact Nat.zero_add _
  | turnedAway job | sends job =>
    have hnil := inHand.jobs_answer (Caller.head_of_offer job)
    rw [Caller.isReceiving_eq_false_of_nil (hnil _), Caller.isReceiving_eq_false_of_offer job]
    rfl
  | findsEnd job | takes job =>
    rw [Caller.isReceiving_eq_false_of_nil (inHand.jobs_receive job _), job]
    rfl
  | skips job =>
    have hreceiving : caller.isReceiving = false := by simp [Caller.isReceiving, job]
    rw [Caller.isReceiving_eq_false_of_nil (inHand.jobs_answer job _), hreceiving]
    rfl

/-- Only a closed channel turns a send away. -/
lemma Turned.not_rejected (h : Turned s who pick caller xs deed t caller' ys)
    (opened : s.channel.closed = false) : deed.bind Deed.rejected? = none := by
  cases h with
  | turnedAway _ closed =>
    rw [opened] at closed
    cases closed
  | _ => rfl

end

/-- What has become of all the calls in a history. -/
structure Tallied (history : List (Occurrence α)) (c : Crowd α) : Prop where
  inHand : ∀ caller ∈ c.callers, InHand caller
  sends : sends history = (accepted history).length + (rejected history).length +
    c.callers.countP fun caller => caller.offer?.isSome
  receives : receives history = (delivered history).length + (ended history).length +
    c.callers.countP Caller.isReceiving

namespace Tallied

/-- A newcomer has its call in hand. -/
lemma call (tallied : Tallied history c) {jobs : List (Job α)} (single : IsSingle jobs) :
    Tallied (history ++ [.joined jobs]) (c.call jobs) where
  inHand caller hmem := by
    rcases List.mem_append.mp hmem with hmem | hmem
    · exact tallied.inHand caller hmem
    · rw [List.mem_singleton.mp hmem]
      exact .inr single
  sends := by
    have hbefore := tallied.sends
    have hone : History.sends [.joined jobs] = (Caller.ofJobs jobs).offer?.isSome.toNat := by
      cases single <;> rfl
    rw [Crowd.call, countP_concat, sends_append, hone, accepted, History.rejected, select_joined,
      select_joined, ← accepted, ← History.rejected, hbefore]
    omega
  receives := by
    have hbefore := tallied.receives
    have hone : History.receives [.joined jobs] = (Caller.ofJobs jobs).isReceiving.toNat := by
      cases single <;> rfl
    rw [Crowd.call, countP_concat, receives_append, hone, delivered, ended, select_joined,
      select_joined, ← delivered, ← ended, hbefore]
    omega

lemma turn {s t : Shared Nat α} {who pick : Nat} {caller caller' : Caller α} {xs ys : List α}
    {deed : Option (Deed α)} (tallied : Tallied history c)
    (hcaller : c.callers[who]? = some caller)
    (h : Turned s who pick caller xs deed t caller' ys) :
    Tallied (history ++ entry who deed) ⟨t, c.callers.set who caller'⟩ := by
  have inHand := tallied.inHand caller (List.mem_of_getElem? hcaller)
  refine ⟨fun other hmem => ?_, ?_, ?_⟩
  · rcases List.mem_or_eq_of_mem_set hmem with hmem | rfl
    · exact tallied.inHand other hmem
    · exact inHand.turn h
  · have hbefore := tallied.sends
    have hturn := h.sends_eq inHand
    have hcount := countP_set_toNat (p := fun caller => caller.offer?.isSome) hcaller caller'
    simp only [sends_append, sends_entry, accepted, History.rejected, select_append,
      List.length_append, length_select_entry] at hbefore ⊢
    omega
  · have hbefore := tallied.receives
    have hturn := h.receives_eq inHand
    have hcount := countP_set_toNat (p := Caller.isReceiving) hcaller caller'
    simp only [receives_append, receives_entry, delivered, ended, select_append,
      List.length_append, length_select_entry] at hbefore ⊢
    omega

lemma close (tallied : Tallied history c) (changed : Bool) :
    Tallied (history ++ [.closed changed]) c.close.2.1 where
  inHand := tallied.inHand
  sends := by
    rw [accepted, History.rejected, select_closed, select_closed, sends_append]
    exact tallied.sends
  receives := by
    rw [delivered, ended, select_closed, select_closed, receives_append]
    exact tallied.receives

end Tallied

/-- In a run of single calls, every call is accounted for. -/
theorem Run.tallied (run : Run (ofChannel (Channel.ofCapacity capacity)) history c)
    (single : ∀ jobs ∈ programs history, IsSingle jobs) : Tallied history c := by
  induction run with
  | start => exact ⟨fun _ hmem => (List.not_mem_nil hmem).elim, rfl, rfl⟩
  | call jobs _ ih =>
    rw [programs_append] at single
    exact (ih fun jobs hmem => single jobs (List.mem_append_left _ hmem)).call
      (single jobs (List.mem_append_right _ (List.mem_singleton_self jobs)))
  | turn who pick run step ih =>
    rw [programs_append, programs_entry, List.append_nil] at single
    obtain ⟨caller, s, caller', ys, hcaller, -, -, hturned, rfl⟩ := turn_cases run.books.holds step
    exact (ih single).turn hcaller hturned
  | wake _ _ _ ih =>
    have tallied := ih single
    exact ⟨tallied.inHand, tallied.sends, tallied.receives⟩
  | close _ ih =>
    rw [programs_append] at single
    exact (ih fun jobs hmem => single jobs (List.mem_append_left _ hmem)).close _

/-- As long as a channel is open, no send is turned away. -/
lemma Run.rejected_eq_nil (run : Run (ofChannel (Channel.ofCapacity capacity)) history c)
    (opened : c.shared.channel.closed = false) : rejected history = [] := by
  induction run with
  | start => rfl
  | call jobs _ ih =>
    rw [rejected, select_joined]
    exact ih opened
  | @turn history c d events who pick run step ih =>
    obtain ⟨caller, s, caller', ys, -, -, -, hturned, rfl⟩ := turn_cases run.books.holds step
    rw [hturned.closed_eq] at opened
    have hbefore := ih opened
    rw [rejected] at hbefore ⊢
    rw [select_append, hbefore, select_entry, hturned.not_rejected opened]
    rfl
  | wake _ _ _ ih => exact ih opened
  | close => cases opened

/-- How an open channel stands at rest after so many calls. -/
structure OpenAtRest (capacity sends receives : Nat) (c : Crowd α) : Prop where
  stats : c.shared.channel.stats =
    { capacity := max capacity 1
      len := min sends (receives + max capacity 1) - min sends receives
      sent := min sends (receives + max capacity 1)
      received := min sends receives
      rejected := 0
      closed := false }
  /-- Those that are parked are all that have a call in hand, and so many. -/
  rest : AtRest c
  nodup : c.shared.parked.Nodup
  senders : c.shared.senders.length = sends - c.shared.channel.stats.sent
  receivers : c.shared.receivers.length = receives - c.shared.channel.stats.received

/-- How a channel stands at rest that was closed at rest after so many calls and has seen so many
calls in all by now. -/
structure ClosedAtRest (capacity sends receives allSends allReceives : Nat) (c : Crowd α) :
    Prop where
  stats : c.shared.channel.stats =
    { capacity := max capacity 1
      len := min sends (receives + max capacity 1) -
        min (min sends (receives + max capacity 1)) allReceives
      sent := min sends (receives + max capacity 1)
      received := min (min sends (receives + max capacity 1)) allReceives
      rejected := allSends - min sends (receives + max capacity 1)
      closed := true }
  nobody : c.shared.parked = []
  finished : ∀ caller ∈ c.callers, caller.isFinished = true

/-- The call that a caller at rest has in hand is the one it is parked with. -/
lemma AtRest.countP_senders (rest : AtRest c) (orderly : Orderly c) :
    (c.callers.countP fun caller => caller.offer?.isSome) = c.shared.senders.length :=
  Nat.le_antisymm
    (countP_le_length fun who caller hcaller hjob =>
      (rest.sender who).mp ⟨caller, hcaller, hjob⟩)
    orderly.length_senders_le

lemma AtRest.countP_receivers (rest : AtRest c) (orderly : Orderly c) :
    c.callers.countP Caller.isReceiving = c.shared.receivers.length :=
  Nat.le_antisymm
    (countP_le_length fun who caller hcaller hjob =>
      (rest.receiver who).mp ⟨caller, hcaller, hjob⟩)
    orderly.length_receivers_le

lemma AtRest.len_eq_zero (rest : AtRest c) (h : c.shared.receivers ≠ []) :
    c.shared.channel.len = 0 := by
  obtain ⟨who, hwho⟩ := List.exists_mem_of_ne_nil _ h
  exact ((rest.receiver_iff who ((rest.receiver who).mpr hwho)).mp hwho).2

lemma AtRest.len_eq_capacity (rest : AtRest c) (h : c.shared.senders ≠ []) :
    c.shared.channel.len = c.shared.channel.capacity := by
  obtain ⟨who, hwho⟩ := List.exists_mem_of_ne_nil _ h
  exact ((rest.sender_iff who ((rest.sender who).mpr hwho)).mp hwho).2

/-- What was accepted is handed out or buffered. -/
lemma Run.sent_eq (run : Run (ofChannel (Channel.ofCapacity capacity)) history c) :
    c.shared.channel.ring.sent = c.shared.channel.ring.received + c.shared.channel.len := by
  have books := run.books
  have hlength := congrArg List.length books.order
  have hlen : c.shared.channel.len = _ := books.holds.len_eq
  rw [List.length_append, List.length_map, List.length_map, ← books.sent, ← books.received]
    at hlength
  omega

lemma Run.openAtRest (run : Run (ofChannel (Channel.ofCapacity capacity)) history c)
    (single : ∀ jobs ∈ programs history, IsSingle jobs)
    (opened : c.shared.channel.closed = false) (settled : c.isSettled = true) :
    OpenAtRest capacity (sends history) (receives history) c := by
  have rest := run.atRest (turn_eq_none_of_settled settled)
  have orderly := run.orderly
  have books := run.books
  have tallied := run.tallied single
  have hcapacity := run.capacity_eq
  have hsent := run.sent_eq
  have hroom : c.shared.channel.len ≤ c.shared.channel.capacity := by
    have hlen : c.shared.channel.len = _ := books.holds.len_eq
    rw [hlen]
    exact books.holds.length_le
  -- Nothing was turned away and no receive came to nothing, so what is not over is parked.
  have hsends := tallied.sends
  rw [run.rejected_eq_nil opened, rest.countP_senders orderly, ← books.sent, List.length_nil]
    at hsends
  have hreceives := tallied.receives
  rw [ended_eq_nil (run.no_end_while_open opened).2, rest.countP_receivers orderly,
    ← books.received, List.length_nil] at hreceives
  have hrejected := books.rejected
  rw [run.rejected_eq_nil opened, List.length_nil] at hrejected
  have hfull : c.shared.senders.length = 0 ∨
      c.shared.channel.len = c.shared.channel.capacity := by
    by_cases hnil : c.shared.senders = []
    · exact .inl (by rw [hnil, List.length_nil])
    · exact .inr (rest.len_eq_capacity hnil)
  have hempty : c.shared.receivers.length = 0 ∨ c.shared.channel.len = 0 := by
    by_cases hnil : c.shared.receivers = []
    · exact .inl (by rw [hnil, List.length_nil])
    · exact .inr (rest.len_eq_zero hnil)
  refine ⟨?_, rest, orderly.nodup, ?_, ?_⟩
  · rw [Channel.stats, hcapacity, hrejected, opened]
    congr 1 <;> omega
  · change _ = _ - c.shared.channel.ring.sent
    omega
  · change _ = _ - c.shared.channel.ring.received
    omega

/-- Once a receive has been told of the end, nothing is buffered any more. -/
lemma Run.len_eq_zero (run : Run (ofChannel (Channel.ofCapacity capacity)) history c)
    (h : ended history ≠ []) : c.shared.channel.len = 0 := by
  have hsome : ∃ who, .did who (.received none) ∈ history := by
    by_contra hnone
    exact h (ended_eq_nil fun who hmem => hnone ⟨who, hmem⟩)
  obtain ⟨who, hwho⟩ := hsome
  have hlen : c.shared.channel.len = _ := run.books.holds.len_eq
  rw [hlen, (run.empty_after_end hwho).2]
  rfl

lemma Run.closedAtRest (run : Run (ofChannel (Channel.ofCapacity capacity)) before c)
    (atClose : OpenAtRest capacity (sends before) (receives before) c)
    (after : Run c.close.2.1 later d)
    (single : ∀ jobs ∈ programs (before ++ [.closed c.close.1] ++ later), IsSingle jobs)
    (settled : d.isSettled = true) :
    ClosedAtRest capacity (sends before) (receives before) (sends before + sends later)
      (receives before + receives later) d := by
  have all := run.close.trans after
  obtain ⟨closed, drains⟩ := run.close.drains rfl after
  have books := all.books
  have tallied := all.tallied single
  have unblocked := all.unblocked closed
  have finished := unblocked.finished (turn_eq_none_of_settled settled)
  have hnil : ∀ caller ∈ d.callers, caller.jobs = [] := fun caller hmem =>
    List.isEmpty_iff.mp (finished caller hmem)
  have hsending : (d.callers.countP fun caller => caller.offer?.isSome) = 0 :=
    List.countP_eq_zero.mpr fun caller hmem => by
      simp [Caller.offer_eq_none_of_nil (hnil caller hmem)]
  have hreceiving : d.callers.countP Caller.isReceiving = 0 :=
    List.countP_eq_zero.mpr fun caller hmem => by
      simp [Caller.isReceiving_eq_false_of_nil (hnil caller hmem)]
  -- No send has been accepted since the close.
  have hsame : d.shared.channel.ring.sent = c.shared.channel.ring.sent := by
    rw [books.sent, run.books.sent, accepted, select_append, select_closed, ← accepted,
      ← accepted, drains.accepted_eq_nil, List.append_nil]
  have hclose :
      c.shared.channel.ring.sent = min (sends before) (receives before + max capacity 1) :=
    congrArg ChannelStats.sent atClose.stats
  have hsends := tallied.sends
  rw [hsending, ← books.sent, ← books.rejected, sends_append, sends_append] at hsends
  have hreceives := tallied.receives
  rw [hreceiving, ← books.received, receives_append, receives_append] at hreceives
  have hzero : History.sends [(.closed c.close.1 : Occurrence α)] = 0 ∧
      History.receives [(.closed c.close.1 : Occurrence α)] = 0 := ⟨rfl, rfl⟩
  have hcapacity := all.capacity_eq
  have hsent := all.sent_eq
  have hempty : (ended (before ++ [.closed c.close.1] ++ later)).length = 0 ∨
      d.shared.channel.len = 0 := by
    by_cases hended : ended (before ++ [.closed c.close.1] ++ later) = []
    · exact .inl (by rw [hended, List.length_nil])
    · exact .inr (all.len_eq_zero hended)
  refine ⟨?_, unblocked.nobody, finished⟩
  rw [Channel.stats, hcapacity, closed]
  congr 1 <;> omega

/-- Single calls on an open channel come to rest, in whatever order they take their turns and
whoever is woken, and so do those that follow a close at rest. How the channel stands then is
decided by the numbers of calls alone. -/
theorem Run.settled_figures (run : Run (ofChannel (Channel.ofCapacity capacity)) before c)
    (single : ∀ jobs ∈ programs before, IsSingle jobs)
    (opened : c.shared.channel.closed = false) :
    (∃ n d, Turns n c d ∧ d.isSettled = true) ∧
      (c.isSettled = true →
        OpenAtRest capacity (sends before) (receives before) c ∧
          ∀ later d, Run c.close.2.1 later d → (∀ jobs ∈ programs later, IsSingle jobs) →
            (∃ n e, Turns n d e ∧ e.isSettled = true) ∧
              (d.isSettled = true →
                ClosedAtRest capacity (sends before) (receives before)
                  (sends before + sends later) (receives before + receives later) d)) := by
  refine ⟨?_, fun settled => ?_⟩
  · obtain ⟨n, turns, hsettled⟩ := run.exists_turns_settle
    exact ⟨n, _, turns, hsettled⟩
  · have atClose := run.openAtRest single opened settled
    refine ⟨atClose, fun later d after singleLater => ⟨?_, fun settled => ?_⟩⟩
    · obtain ⟨n, turns, hsettled⟩ := (run.close.trans after).exists_turns_settle
      exact ⟨n, _, turns, hsettled⟩
    · refine run.closedAtRest atClose after (fun jobs hmem => ?_) settled
      rw [programs_append, programs_append] at hmem
      rcases List.mem_append.mp hmem with hmem | hmem
      · rcases List.mem_append.mp hmem with hmem | hmem
        · exact single jobs hmem
        · cases hmem
      · exact singleLater jobs hmem

/-- Of two parked senders the later one gets its value in; the other gets its value back after the
close, as does one that comes then, and of two late receivers one comes to nothing. -/
theorem later_sender_overtakes : ∃ c d : Crowd Nat,
    Run (ofChannel (Channel.ofCapacity 0))
      [.joined [.send 1], .joined [.send 2], .joined [.send 3], .joined [.receive],
        .did 0 (.sent 1 .accepted), .did 3 (.received (some 1)), .did 2 (.sent 3 .accepted)] c ∧
    c.shared.senders = [1] ∧
    OpenAtRest 0 3 1 c ∧
    Run c.close.2.1
      [.joined [.receive], .joined [.send 4], .joined [.receive], .did 4 (.received (some 3)),
        .did 1 (.sent 2 (.rejected 2)), .did 6 (.received none), .did 5 (.sent 4 (.rejected 4))]
      d ∧
    d.shared.channel.stats = ⟨1, 0, 2, 2, 2, true⟩ ∧ ClosedAtRest 0 3 1 4 3 d := by
  have opened : Run (ofChannel (Channel.ofCapacity 0 : Channel Nat)) [] _ := .start
  have joined := opened.call [.send 1] |>.call [.send 2] |>.call [.send 3] |>.call [.receive]
  have parked := ((joined.turn 0 0 rfl).turn 1 0 rfl).turn 2 0 rfl
  have atRest := (parked.turn 3 1 rfl).turn 2 0 rfl
  have from_close : ∀ {history} {c : Crowd Nat}, Run (ofChannel (Channel.ofCapacity 0)) history c →
      Run c.close.2.1 [] c.close.2.1 := fun _ => .start
  have late := (from_close atRest).call [.receive] |>.call [.send 4] |>.call [.receive]
  have drained := (((late.turn 4 0 rfl).turn 1 0 rfl).turn 6 0 rfl).turn 5 0 rfl
  obtain ⟨atClose, closed⟩ := (atRest.settled_figures (by decide) rfl).2 (by decide)
  exact ⟨_, _, atRest, rfl, atClose, drained, rfl, (closed _ _ drained (by decide)).2 (by decide)⟩

end Crowd
end Strand
