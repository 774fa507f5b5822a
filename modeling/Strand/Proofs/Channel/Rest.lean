import Strand.Proofs.Channel.Wakeup

/-! A crowd left to itself comes to rest. Turns come to an end, because each makes the weight of the
crowd smaller; and where nobody has a turn left, nobody is on the way either, so a receiver that is
still parked waits at an empty channel and a sender at a full one. -/
namespace Strand

/-- What the jobs of a caller come to, when a job counts as much as `f` says. -/
def Caller.load {α : Type} (f : Job α → Nat) (c : Caller α) : Nat :=
  c.jobs.foldr (fun job n => f job + n) 0

/-- The load of all callers, with what the buffered values and the ready callers add to it. -/
def Crowd.load {α : Type} (f : Job α → Nat) (c : Crowd α) : Nat :=
  c.callers.foldr (fun caller n => caller.load f + n) 0 + 2 * c.shared.channel.len +
    c.ready.length

/-- A finished job outweighs the value that it may put in and the caller that it may wake. -/
structure Job.Outweighs {α : Type} (f : Job α → Nat) : Prop where
  send : ∀ value, 4 ≤ f (.send value)
  receive : 1 ≤ f .receive
  collect : ∀ limit, 1 ≤ f (.collect limit)

namespace Caller
variable {α : Type} {f : Job α → Nat} {c : Caller α} {job : Job α}

lemma load_answer (f : Job α → Nat) (hjob : c.jobs.head? = some job) (a : Answer α) :
    (c.answer a).load f + f job = c.load f := by
  cases hjobs : c.jobs with
  | nil => simp [hjobs] at hjob
  | cons first rest =>
    have hfirst : first = job := by simpa [hjobs] using hjob
    simp only [load, answer, hjobs, List.tail_cons, List.foldr_cons, hfirst]
    omega

lemma load_receive_none (outweighs : Job.Outweighs f) (job : c.isReceiving = true) :
    (c.receive none).load f < c.load f := by
  rcases isReceiving_cases job with hjob | ⟨limit, hjob, -⟩
  · have := load_answer f hjob (.received none)
    have := outweighs.receive
    simp only [receive, hjob]
    omega
  · have := load_answer f hjob (.collected c.items)
    have := outweighs.collect limit
    simp only [receive, hjob]
    omega

lemma load_receive_some (f : Job α → Nat) (job : c.isReceiving = true) (x : α) :
    (c.receive (some x)).load f ≤ c.load f := by
  rcases isReceiving_cases job with hjob | ⟨limit, hjob, -⟩
  · have := load_answer f hjob (.received (some x))
    simp only [receive, hjob]
    omega
  · simp only [receive, hjob, gather]
    split
    · have := load_answer f hjob (.collected (c.items ++ [x]))
      omega
    · exact Nat.le_refl _

end Caller

namespace Crowd
variable {α : Type} {c d : Crowd α}

section
variable {who : Nat}

/-- A caller that is ready has a turn, whoever would be woken by it. -/
lemma turn_isSome (h : c.isReady who = true) (pick : Nat) : (c.turn who pick).isSome = true := by
  obtain ⟨caller, hcaller, hunfinished, -⟩ := isReady_iff.mp h
  cases hjob : caller.jobs.head? with
  | none =>
    rw [List.head?_eq_none_iff] at hjob
    simp [Caller.isFinished, hjob] at hunfinished
  | some job =>
    rw [turn, h, hcaller]
    simp only [Bool.not_true, Bool.false_eq_true, if_false, Option.bind_some, hjob]
    cases job with
    | send value => cases hresult : (c.shared.send who value pick).1.result <;> simp [hresult]
    | receive => cases (c.shared.receive who pick).1.result <;> simp
    | collect limit =>
      rcases (c.shared.receive who pick).1.result with _ | _ | value <;>
        rcases limit with _ | _ | n <;> simp

lemma not_ready_of_turn (h : c.turn who 0 = none) : c.isReady who = false := by
  by_contra hready
  have := turn_isSome (Bool.eq_true_of_not_eq_false hready) 0
  rw [h] at this
  cases this

/-- The load with the ready callers counted by those that have work left. -/
lemma load_add_parked (f : Job α → Nat) {xs : List α} (holds : c.shared.channel.ring.Holds xs)
    (orderly : Orderly c) :
    c.load f + (c.shared.senders.length + c.shared.receivers.length) =
      c.callers.foldr (fun caller n => caller.load f + n) 0 + 2 * xs.length +
        c.callers.countP fun caller => !caller.isFinished := by
  have hready := orderly.length_ready
  have hlen : c.shared.channel.len = xs.length := holds.len_eq
  rw [Shared.parked, List.length_append] at hready
  rw [load, hlen]
  omega

/-- Every turn takes something off the load. -/
theorem Turned.load_lt {f : Job α → Nat} (outweighs : Job.Outweighs f) {t : Shared Nat α}
    {pick : Nat} {caller caller' : Caller α} {xs ys : List α} {deed : Option (Deed α)}
    (holds : c.shared.channel.ring.Holds xs) (orderly : Orderly c)
    (hcaller : c.callers[who]? = some caller) (hunfinished : caller.isFinished = false)
    (hwho : who ∉ c.shared.parked) (h : Turned c.shared who pick caller xs deed t caller' ys) :
    load f ⟨t, c.callers.set who caller'⟩ < c.load f := by
  have hbefore := load_add_parked f holds orderly
  have hafter := load_add_parked f (h.holds holds) (orderly.turn hcaller hwho h)
  have hjobs := foldr_set_add hcaller caller' (Caller.load f)
  have hleft := countP_set_add hcaller (p := fun caller => !caller.isFinished) caller'
  have hone : (if (!caller'.isFinished) = true then 1 else 0) ≤ 1 := by split <;> omega
  simp only [hunfinished, Bool.not_false, if_true] at hleft
  generalize load f ⟨t, c.callers.set who caller'⟩ = load' at hafter ⊢
  dsimp only at hafter
  cases h with
  | waitsForRoom =>
    simp only [hunfinished, Bool.not_false, if_true, List.length_append, List.length_singleton]
      at hleft hafter
    omega
  | waitsForValue =>
    simp only [hunfinished, Bool.not_false, if_true, List.length_append, List.length_singleton]
      at hleft hafter
    omega
  | @turnedAway xs value job =>
    have hload := Caller.load_answer f (Caller.head_of_offer job) (.sent (.rejected value))
    have := outweighs.send value
    dsimp only at hafter
    omega
  | @sends xs value job =>
    have hload := Caller.load_answer f (Caller.head_of_offer job) (.sent .accepted)
    have := outweighs.send value
    have hwoken := length_le_wakeOne c.shared.receivers pick
    simp only [List.length_append, List.length_singleton] at hafter
    omega
  | findsEnd job =>
    have hload := Caller.load_receive_none outweighs job
    omega
  | @takes x xs job =>
    have hload := Caller.load_receive_some f job x
    have hwoken := length_le_wakeOne c.shared.senders pick
    simp only [List.length_cons] at hbefore hafter
    omega
  | skips job =>
    have hload := Caller.load_answer f job (.collected [])
    have := outweighs.collect (some 0)
    omega

lemma outweighs_jobWeight : Job.Outweighs (jobWeight : Job α → Nat) where
  send _ := by simp [jobWeight]
  receive := by simp [jobWeight]
  collect _ := by simp [jobWeight]

end

/-- A crowd left to itself, with nobody joining and nobody closing the channel: so many turns, of
whoever is ready, in any order. -/
inductive Turns : Nat → Crowd α → Crowd α → Prop
  | refl (c : Crowd α) : Turns 0 c c
  | turn {n c d e events} (who pick : Nat) (step : c.turn who pick = some (d, events))
      (rest : Turns n d e) : Turns (n + 1) c e

/-- How a crowd stands in which nobody has a turn left. -/
structure AtRest (c : Crowd α) : Prop where
  /-- A receive is either over or parked. -/
  receiver : ∀ who, c.IsReceiving who ↔ who ∈ c.shared.receivers
  sender : ∀ who, c.IsSending who ↔ who ∈ c.shared.senders
  /-- A receive that is not over is parked because the channel is open and empty. -/
  receiver_iff : ∀ who, c.IsReceiving who →
    (who ∈ c.shared.receivers ↔ c.shared.channel.closed = false ∧ c.shared.channel.len = 0)
  /-- A send that is not over is parked because the channel is open and full. -/
  sender_iff : ∀ who, c.IsSending who →
    (who ∈ c.shared.senders ↔ c.shared.channel.closed = false ∧
      c.shared.channel.len = c.shared.channel.capacity)
  one_kind : c.shared.senders = [] ∨ c.shared.receivers = []
  /-- Whoever is not parked has finished. -/
  others : ∀ (who : Nat) (caller : Caller α), c.callers[who]? = some caller →
    caller.isFinished = true ∨ who ∈ c.shared.parked

section
variable {start : Crowd α} {history : List (Occurrence α)} {capacity n : Nat}

lemma Turns.run (turns : Turns n c d) (run : Run start history c) :
    ∃ history', Run start history' d := by
  induction turns generalizing history with
  | refl c => exact ⟨history, run⟩
  | turn who pick step _ ih => exact ih (run.turn who pick step)

lemma Turns.weight_le (turns : Turns n c d)
    (run : Run (Crowd.ofChannel (Channel.ofCapacity capacity)) history c) :
    n + d.weight ≤ c.weight := by
  induction turns generalizing history with
  | refl c => exact (Nat.zero_add _).le
  | turn who pick step _ ih =>
    have hrest := ih (run.turn who pick step)
    obtain ⟨caller, t, caller', ys, hcaller, hunfinished, hwho, hturned, rfl⟩ :=
      turn_cases run.books.holds step
    have hlt : weight _ < weight _ := hturned.load_lt outweighs_jobWeight run.books.holds
      run.orderly hcaller hunfinished hwho
    omega

/-- The first ready caller has a turn as long as there is one. -/
lemma exists_turns_run (n : Nat) :
    ∃ k, Turns k c (c.run n).1 ∧ (k = n ∨ (c.run n).1.isSettled = true) := by
  induction n generalizing c with
  | zero => exact ⟨0, .refl c, .inl rfl⟩
  | succ n ih =>
    cases hready : c.ready with
    | nil =>
      refine ⟨0, ?_, .inr ?_⟩
      · rw [Crowd.run, hready]
        exact .refl c
      · rw [Crowd.run, hready, isSettled, hready]
        rfl
    | cons who rest =>
      have hwho : c.isReady who = true := by
        have hmem : who ∈ c.ready := by rw [hready]; exact List.mem_cons_self
        exact (List.mem_filter.mp hmem).2
      obtain ⟨⟨d, events⟩, step⟩ := Option.isSome_iff_exists.mp (turn_isSome hwho 0)
      obtain ⟨k, turns, hk⟩ := ih (c := d)
      have hrun : (c.run (n + 1)).1 = (d.run n).1 := by simp only [Crowd.run, hready, step]
      rw [hrun]
      exact ⟨k + 1, .turn who 0 step turns, hk.imp (congrArg (· + 1)) id⟩

lemma turn_eq_none_of_settled (h : c.isSettled = true) (who pick : Nat) :
    c.turn who pick = none := by
  have hnot : c.isReady who = false := by
    by_contra hready
    obtain ⟨caller, hcaller, -⟩ := isReady_iff.mp (Bool.eq_true_of_not_eq_false hready)
    have hlt := (List.getElem?_eq_some_iff.mp hcaller).1
    have hmem : who ∈ c.ready := List.mem_filter.mpr
      ⟨List.mem_range.mpr hlt, Bool.eq_true_of_not_eq_false hready⟩
    rw [List.isEmpty_iff.mp h] at hmem
    cases hmem
  rw [turn, hnot]
  rfl

/-- Left to itself, every crowd settles. -/
theorem Run.exists_turns_settle
    (run : Run (Crowd.ofChannel (Channel.ofCapacity capacity)) history c) :
    ∃ n, Turns n c c.settle.1 ∧ c.settle.1.isSettled = true := by
  obtain ⟨k, turns, hk⟩ := exists_turns_run (c := c) c.weight
  refine ⟨k, turns, ?_⟩
  rcases hk with hall | hsettled
  · -- All the weight is used up, so nobody can be left who is ready.
    have hle := turns.weight_le run
    have hzero : c.settle.1.weight = 0 := by
      rw [settle]
      omega
    have hready : c.settle.1.ready.length = 0 := by
      rw [weight] at hzero
      omega
    exact List.isEmpty_iff.mpr (List.length_eq_zero_iff.mp hready)
  · exact hsettled

section
variable {who : Nat}

lemma finished_or_parked (h : ∀ who pick, c.turn who pick = none) {caller : Caller α}
    (hcaller : c.callers[who]? = some caller) :
    caller.isFinished = true ∨ who ∈ c.shared.parked := by
  by_contra hcon
  obtain ⟨hunfinished, hparked⟩ := not_or.mp hcon
  have hready : c.isReady who = true :=
    isReady_iff.mpr ⟨caller, hcaller, Bool.eq_false_of_not_eq_true hunfinished, hparked⟩
  rw [not_ready_of_turn (h who 0)] at hready
  cases hready

lemma Orderly.isReceiving_iff (orderly : Orderly c) (h : ∀ who pick, c.turn who pick = none)
    (who : Nat) : c.IsReceiving who ↔ who ∈ c.shared.receivers := by
  refine ⟨fun hreceiving => ?_, orderly.receiver who⟩
  obtain ⟨caller, hcaller, hjob⟩ := id hreceiving
  have hunfinished := Caller.isFinished_of_receiving hjob
  have hparked := (finished_or_parked h hcaller).resolve_left (by simp [hunfinished])
  rcases mem_parked.mp hparked with hsenders | hreceivers
  · exact absurd hreceiving (orderly.sender who hsenders).not_receiving
  · exact hreceivers

lemma Orderly.isSending_iff (orderly : Orderly c) (h : ∀ who pick, c.turn who pick = none)
    (who : Nat) : c.IsSending who ↔ who ∈ c.shared.senders := by
  refine ⟨fun hsending => ?_, orderly.sender who⟩
  obtain ⟨caller, hcaller, hjob⟩ := id hsending
  have hunfinished := Caller.isFinished_of_offer hjob
  have hparked := (finished_or_parked h hcaller).resolve_left (by simp [hunfinished])
  rcases mem_parked.mp hparked with hsenders | hreceivers
  · exact hsenders
  · exact absurd (orderly.receiver who hreceivers) hsending.not_receiving

/-- If everybody who needs a value is parked, there is none. -/
lemma Served.buffered_eq_zero {buffered : Nat} (served : Served c buffered)
    (hall : ∀ who, c.IsReceiving who ↔ who ∈ c.shared.receivers)
    (hne : c.shared.receivers ≠ []) : buffered = 0 := by
  have hinv := served.receivers hne
  have hcount : c.callers.countP Caller.isReceiving ≤ c.shared.receivers.length :=
    countP_le_length fun who caller hcaller hjob => (hall who).mp ⟨caller, hcaller, hjob⟩
  omega

/-- If everybody who has a value to send is parked, there is no room for it. -/
lemma Served.capacity_le {buffered : Nat} (served : Served c buffered)
    (hall : ∀ who, c.IsSending who ↔ who ∈ c.shared.senders)
    (hne : c.shared.senders ≠ []) : c.shared.channel.capacity ≤ buffered := by
  have hinv := served.senders hne
  have hcount : (c.callers.countP fun caller => caller.offer?.isSome) ≤ c.shared.senders.length :=
    countP_le_length fun who caller hcaller hjob => (hall who).mp ⟨caller, hcaller, hjob⟩
  omega

end

/-- When nobody has a turn left, those that are not done wait for what the channel lacks. -/
theorem Run.atRest (run : Run (Crowd.ofChannel (Channel.ofCapacity capacity)) history c)
    (h : ∀ who pick, c.turn who pick = none) : AtRest c := by
  have holds := run.books.holds
  have orderly := run.orderly
  have hreceiver := orderly.isReceiving_iff h
  have hsender := orderly.isSending_iff h
  have hlen : c.shared.channel.len ≤ c.shared.channel.capacity := by
    have hlen_eq : c.shared.channel.len = _ := holds.len_eq
    rw [hlen_eq]
    exact holds.length_le
  have hcapacity : 0 < c.shared.channel.capacity := holds.capacity_pos
  have hempty := run.served.buffered_eq_zero hreceiver
  have hfull := fun hne => Nat.le_antisymm hlen (run.served.capacity_le hsender hne)
  have hopen : c.shared.parked ≠ [] → c.shared.channel.closed = false := fun hne =>
    Bool.eq_false_of_not_eq_true fun hclosed => hne (orderly.closed hclosed)
  refine ⟨hreceiver, hsender, fun who hreceiving => ?_, fun who hsending => ?_, ?_,
    fun _ _ => finished_or_parked h⟩
  · have hmem := (hreceiver who).mp hreceiving
    have hparked := List.ne_nil_of_mem (mem_parked.mpr (.inr hmem))
    exact iff_of_true hmem ⟨hopen hparked, hempty (List.ne_nil_of_mem hmem)⟩
  · have hmem := (hsender who).mp hsending
    have hparked := List.ne_nil_of_mem (mem_parked.mpr (.inl hmem))
    exact iff_of_true hmem ⟨hopen hparked, hfull (List.ne_nil_of_mem hmem)⟩
  · by_contra hboth
    obtain ⟨hsenders, hreceivers⟩ := not_or.mp hboth
    have h0 := hempty hreceivers
    have h1 := hfull hsenders
    omega

/-- From every reachable crowd on, only so many turns can follow as the crowd weighs; some turns
lead to where nobody has one left; and wherever that is, nobody waits in vain. -/
theorem no_lost_wakeup (run : Run (Crowd.ofChannel (Channel.ofCapacity capacity)) history c) :
    (∀ n d, Turns n c d → n ≤ c.weight) ∧
      (∃ n d, Turns n c d ∧ ∀ who pick, d.turn who pick = none) ∧
      ∀ n d, Turns n c d → (∀ who pick, d.turn who pick = none) → AtRest d := by
  refine ⟨fun n d turns => ?_, ?_, fun n d turns h => ?_⟩
  · have := turns.weight_le run
    omega
  · obtain ⟨n, turns, hsettled⟩ := run.exists_turns_settle
    exact ⟨n, c.settle.1, turns, turn_eq_none_of_settled hsettled⟩
  · obtain ⟨history', run'⟩ := turns.run run
    exact run'.atRest h

end

/-- Two receivers are parked and a value comes; before the second, who is woken, has a turn, a third
receiver may overtake it. -/
theorem overtaken_receiver_waits_for_value : ∃ c : Crowd Nat,
    Run (Crowd.ofChannel (Channel.ofCapacity 1))
      [.joined [.receive], .joined [.receive], .joined [.send 7], .joined [.receive],
        .did 2 (.sent 7 .accepted)] c ∧
    c.shared.receivers = [0] ∧ c.ready = [1, 3] ∧
    (∀ n d, Turns n c d → n ≤ c.weight) ∧
      (∃ n d, Turns n c d ∧ ∀ who pick, d.turn who pick = none) ∧
      ∀ n d, Turns n c d → (∀ who pick, d.turn who pick = none) → AtRest d := by
  have opened : Run (Crowd.ofChannel (Channel.ofCapacity 1 : Channel Nat)) [] _ := .start
  have joined := opened.call [.receive] |>.call [.receive] |>.call [.send 7] |>.call [.receive]
  have parked := (joined.turn 0 0 rfl).turn 1 0 rfl
  have sent := parked.turn 2 1 rfl
  exact ⟨_, sent, rfl, by decide, no_lost_wakeup sent⟩

end Crowd
end Strand
