import Strand.Proofs.Channel.Rest

/-! What a close settles for good. The first close of a channel is the only one that changes it;
from then on nobody waits, every send gets its own value back, and the receives take what was
buffered at the close, oldest first, and after that nothing. -/
namespace Strand
open History

namespace Crowd
variable {α : Type} {start c d : Crowd α} {history before later : List (Occurrence α)}

/-- A run can be continued where another one has led. -/
theorem Run.trans (first : Run start history c) (second : Run c later d) :
    Run start (history ++ later) d := by
  induction second with
  | start =>
    rw [List.append_nil]
    exact first
  | call jobs _ ih =>
    rw [← List.append_assoc]
    exact ih.call jobs
  | turn who pick _ step ih =>
    rw [← List.append_assoc]
    exact ih.turn who pick step
  | wake _ fewer_senders fewer_receivers ih => exact ih.wake fewer_senders fewer_receivers
  | close _ ih =>
    rw [← List.append_assoc]
    exact ih.close

section
variable {s t : Shared Nat α} {who pick : Nat} {caller caller' : Caller α} {xs ys : List α}
  {deed : Option (Deed α)}

/-- No turn closes a channel, and none opens it again. -/
lemma Turned.closed_eq (h : Turned s who pick caller xs deed t caller' ys) :
    t.channel.closed = s.channel.closed := by
  cases h <;> rfl

/-- A receive comes to nothing only if nothing is buffered on a closed channel. -/
lemma Turned.of_received_none
    (h : Turned s who pick caller xs (some (.received none)) t caller' ys) :
    s.channel.closed = true ∧ xs = [] ∧ ys = [] := by
  cases h with
  | findsEnd _ closed => exact ⟨closed, rfl, rfl⟩

/-- What a turn on a closed channel completes: it gives a sender its value back, or hands the oldest
value out. -/
lemma Turned.of_closed (h : Turned s who pick caller xs deed t caller' ys)
    (closed : s.channel.closed = true) :
    (∃ value, caller.offer? = some value ∧ deed = some (.sent value (.rejected value)) ∧ ys = xs ∧
        caller' = caller.answer (.sent (.rejected value)) ∧
        t = { s with channel := { s.channel with rejected := s.channel.rejected + 1 } }) ∨
      (caller.isReceiving = true ∧ deed = some (.received xs.head?) ∧ ys = xs.tail ∧
        caller' = caller.receive xs.head?) ∨
      (caller.jobs.head? = some (.collect (some 0)) ∧ deed = none ∧ ys = xs) := by
  cases h with
  | waitsForRoom _ opened => simp [closed] at opened
  | turnedAway job => exact .inl ⟨_, job, rfl, rfl, rfl, rfl⟩
  | sends _ opened => simp [closed] at opened
  | waitsForValue _ opened => simp [closed] at opened
  | findsEnd job => exact .inr (.inl ⟨job, rfl, rfl, rfl⟩)
  | takes job => exact .inr (.inl ⟨job, rfl, rfl, rfl⟩)
  | skips job => exact .inr (.inr ⟨job, rfl, rfl⟩)

end

/-- As long as a channel is open, nobody has closed it and no receive has come to nothing. -/
theorem Run.no_end_while_open {capacity : Nat}
    (run : Run (ofChannel (Channel.ofCapacity capacity)) history c)
    (opened : c.shared.channel.closed = false) :
    (∀ changed, .closed changed ∉ history) ∧ ∀ who, .did who (.received none) ∉ history := by
  induction run with
  | start => exact ⟨fun _ => List.not_mem_nil, fun _ => List.not_mem_nil⟩
  | call jobs _ ih =>
    obtain ⟨hclose, hnone⟩ := ih opened
    exact ⟨by simpa using hclose, by simpa using hnone⟩
  | @turn history c d events who pick run step ih =>
    obtain ⟨caller, s, caller', ys, -, -, -, hturned, rfl⟩ := turn_cases run.books.holds step
    rw [hturned.closed_eq] at opened
    obtain ⟨hclose, hnone⟩ := ih opened
    refine ⟨fun changed => ?_, fun k => ?_⟩
    · simpa [entry] using hclose changed
    · rw [List.mem_append, not_or]
      refine ⟨hnone k, fun hmem => ?_⟩
      obtain ⟨deed, hdeed, heq⟩ := List.mem_map.mp hmem
      cases heq
      rw [Option.mem_toList.mp hdeed] at hturned
      rw [hturned.of_received_none.1] at opened
      cases opened
  | wake _ _ _ ih => exact ih opened
  | close => cases opened

/-- Once a receive has come to nothing, the channel is closed and nothing is ever buffered again. -/
theorem Run.empty_after_end {capacity : Nat}
    (run : Run (ofChannel (Channel.ofCapacity capacity)) history c) {k : Nat}
    (ended : .did k (.received none) ∈ history) :
    c.shared.channel.closed = true ∧ c.shared.channel.ring.toList = [] := by
  induction run with
  | start => cases ended
  | call jobs _ ih => exact ih (by simpa using ended)
  | @turn history c d events who pick run step ih =>
    have holds := run.books.holds
    obtain ⟨caller, s, caller', ys, -, -, -, hturned, rfl⟩ := turn_cases holds step
    have hys : s.channel.ring.toList = ys := (hturned.holds holds).toList_eq
    dsimp only
    rw [hturned.closed_eq, hys]
    rcases List.mem_append.mp ended with hbefore | hnow
    · obtain ⟨closed, hempty⟩ := ih hbefore
      refine ⟨closed, ?_⟩
      rcases hturned.of_closed closed with ⟨-, -, -, hsame, -⟩ | ⟨-, -, htail, -⟩ | ⟨-, -, hsame⟩
      · rw [hsame, hempty]
      · rw [htail, hempty]
        rfl
      · rw [hsame, hempty]
    · obtain ⟨deed, hdeed, heq⟩ := List.mem_map.mp hnow
      cases heq
      rw [Option.mem_toList.mp hdeed] at hturned
      obtain ⟨closed, -, hempty⟩ := hturned.of_received_none
      exact ⟨closed, hempty⟩
  | wake _ _ _ ih => exact ih ended
  | close _ ih =>
    obtain ⟨-, hempty⟩ := ih (by simpa using ended)
    exact ⟨rfl, hempty⟩

/-- What happened since a close at which `xs` was buffered, when `ys` is buffered now. -/
structure Drains (xs : List α) (later : List (Occurrence α)) (ys : List α) : Prop where
  /-- No close since then was told that it closed the channel. -/
  once : ∀ changed, .closed changed ∈ later → changed = false
  refused : ∀ who value result, .did who (.sent value result) ∈ later → result = .rejected value
  order : (delivered later).map Prod.snd ++ ys = xs
  /-- Receives come to nothing when all that was buffered is taken, and ever after. -/
  ended : ∀ before who after, later = before ++ .did who (.received none) :: after →
    (delivered before).map Prod.snd = xs ∧
      ∀ who' outcome, .did who' (.received outcome) ∈ after → outcome = none

namespace Drains
variable {xs ys zs : List α}

lemma ofClose (xs : List α) : Drains xs [] xs where
  once _ h := by cases h
  refused _ _ _ h := by cases h
  order := rfl
  ended before _ after h := by simp at h

/-- One more entry fits if it closes nothing, accepts nothing and receives the oldest value. -/
lemma snoc (drains : Drains xs later ys) {occurrence : Occurrence α}
    (once : ∀ changed, occurrence = .closed changed → changed = false)
    (refused : ∀ who value result, occurrence = .did who (.sent value result) →
      result = .rejected value)
    (oldest : ∀ who outcome, occurrence = .did who (.received outcome) → outcome = ys.head?)
    (order : (delivered [occurrence]).map Prod.snd ++ zs = ys) :
    Drains xs (later ++ [occurrence]) zs where
  once changed h := by
    rcases List.mem_append.mp h with h | h
    · exact drains.once changed h
    · exact once changed (List.mem_singleton.mp h).symm
  refused who value result h := by
    rcases List.mem_append.mp h with h | h
    · exact drains.refused who value result h
    · exact refused who value result (List.mem_singleton.mp h).symm
  order := by
    rw [delivered, select_append, List.map_append, List.append_assoc, ← delivered, ← delivered,
      order]
    exact drains.order
  ended before who after h := by
    have hdrained := drains.order
    rcases concat_eq_append_cons h with ⟨rfl, hlast, rfl⟩ | ⟨rest, rfl, hlater⟩
    · have hnil : ys = [] := List.head?_eq_none_iff.mp (oldest who none hlast.symm).symm
      rw [hnil, List.append_nil] at hdrained
      exact ⟨hdrained, fun _ _ hmem => by cases hmem⟩
    · obtain ⟨hall, hnone⟩ := drains.ended before who rest hlater
      refine ⟨hall, fun who' outcome hmem => ?_⟩
      rcases List.mem_append.mp hmem with hmem | hmem
      · exact hnone who' outcome hmem
      · -- All values had been taken by then, so none are left to be received.
        rw [hlater, delivered, select_append, List.map_append, ← delivered, hall,
          List.append_assoc, List.append_right_eq_self] at hdrained
        rw [oldest who' outcome (List.mem_singleton.mp hmem).symm,
          (List.append_eq_nil_iff.mp hdrained).2]
        rfl

lemma turn {s t : Shared Nat α} {who pick : Nat} {caller caller' : Caller α}
    {deed : Option (Deed α)} (drains : Drains xs later ys) (closed : s.channel.closed = true)
    (h : Turned s who pick caller ys deed t caller' zs) :
    Drains xs (later ++ entry who deed) zs := by
  rcases h.of_closed closed with
    ⟨value, -, rfl, rfl, -⟩ | ⟨-, rfl, rfl, -⟩ | ⟨-, rfl, rfl⟩
  · apply drains.snoc
    · simp
    · simp
    · simp
    · rfl
  · apply drains.snoc
    · simp
    · simp
    · simp
    · cases ys <;> rfl
  · simpa [entry] using drains

end Drains

section
variable {capacity : Nat}

/-- A closed channel stays closed, and drains. -/
theorem Run.drains (run : Run (ofChannel (Channel.ofCapacity capacity)) history c)
    (closed : c.shared.channel.closed = true) (after : Run c later d) :
    d.shared.channel.closed = true ∧
      Drains c.shared.channel.ring.toList later d.shared.channel.ring.toList := by
  induction after with
  | start => exact ⟨closed, Drains.ofClose _⟩
  | call jobs _ ih =>
    refine ⟨ih.1, ih.2.snoc ?_ ?_ ?_ rfl⟩ <;> simp
  | @turn later d e events who pick after step ih =>
    have holds := (run.trans after).books.holds
    obtain ⟨caller, s, caller', ys, -, -, -, hturned, rfl⟩ := turn_cases holds step
    have hys : s.channel.ring.toList = ys := (hturned.holds holds).toList_eq
    dsimp only
    rw [hturned.closed_eq, hys]
    exact ⟨ih.1, ih.2.turn ih.1 hturned⟩
  | wake _ _ _ ih => exact ih
  | @close later d _ ih =>
    refine ⟨rfl, ih.2.snoc ?_ ?_ ?_ rfl⟩
    · intro changed hchanged
      cases hchanged
      simp [Crowd.close, Shared.close, Channel.close, ih.1]
    · simp
    · simp

/-- How the callers on a closed channel stand: nobody is parked, and the next turn of each that has
work left gives a sender its value back, or a receiver the oldest value or none. -/
structure Unblocked (d : Crowd α) : Prop where
  nobody : d.shared.parked = []
  /-- A send goes back to its sender and leaves all but one counter as they are. -/
  sends : ∀ who caller value, d.callers[who]? = some caller → caller.offer? = some value →
    ∀ pick, ∃ e events, d.turn who pick = some (e, events) ∧
      d.deed? who = some (.sent value (.rejected value)) ∧
      e.callers[who]? = some (caller.answer (.sent (.rejected value))) ∧
      e.shared = { d.shared with
        channel := { d.shared.channel with rejected := d.shared.channel.rejected + 1 } }
  receives : ∀ who caller, d.callers[who]? = some caller → caller.isReceiving = true →
    ∀ pick, ∃ e events, d.turn who pick = some (e, events) ∧
      d.deed? who = some (.received d.shared.channel.ring.toList.head?) ∧
      e.callers[who]? = some (caller.receive d.shared.channel.ring.toList.head?) ∧
      e.shared.channel.ring.toList = d.shared.channel.ring.toList.tail
  /-- Callers that have no turn left have finished. -/
  finished : (∀ who pick, d.turn who pick = none) → ∀ caller ∈ d.callers, caller.isFinished = true

/-- A caller that has work left on a closed channel has a turn, and the turn completes something. -/
lemma Run.turned_of_closed (run : Run (ofChannel (Channel.ofCapacity capacity)) history d)
    (closed : d.shared.channel.closed = true) {who : Nat} {caller : Caller α}
    (hcaller : d.callers[who]? = some caller) (hunfinished : caller.isFinished = false)
    (pick : Nat) :
    ∃ s caller' ys events, d.turn who pick = some (⟨s, d.callers.set who caller'⟩, events) ∧
      (⟨s, d.callers.set who caller'⟩ : Crowd α).callers[who]? = some caller' ∧
      s.channel.ring.toList = ys ∧
      Turned d.shared who pick caller d.shared.channel.ring.toList (d.deed? who) s caller' ys := by
  have holds := run.books.holds
  have hready : d.isReady who = true :=
    isReady_iff.mpr ⟨caller, hcaller, hunfinished, by simp [run.orderly.closed closed]⟩
  obtain ⟨⟨e, events⟩, step⟩ := Option.isSome_iff_exists.mp (turn_isSome hready pick)
  obtain ⟨other, s, caller', ys, hother, -, -, hturned, rfl⟩ := turn_cases holds step
  rw [hcaller, Option.some.injEq] at hother
  subst hother
  have hlt := (List.getElem?_eq_some_iff.mp hcaller).1
  exact ⟨s, caller', ys, events, step, List.getElem?_set_self hlt, (hturned.holds holds).toList_eq,
    hturned⟩

lemma Run.unblocked (run : Run (ofChannel (Channel.ofCapacity capacity)) history d)
    (closed : d.shared.channel.closed = true) : Unblocked d where
  nobody := run.orderly.closed closed
  sends who caller value hcaller job pick := by
    obtain ⟨s, caller', ys, events, step, hself, -, hturned⟩ := run.turned_of_closed closed hcaller
      (Caller.isFinished_of_offer (by rw [job]; rfl)) pick
    have hnot := Caller.isReceiving_eq_false_of_offer job
    refine ⟨_, _, step, ?_⟩
    rw [hself]
    rcases hturned.of_closed closed with
      ⟨other, hother, hdeed, -, rfl, rfl⟩ | ⟨hreceiving, -⟩ | ⟨hskip, -⟩
    · rw [job, Option.some.injEq] at hother
      subst hother
      exact ⟨hdeed, rfl, rfl⟩
    · rw [hnot] at hreceiving
      cases hreceiving
    · rw [Caller.head_of_offer job] at hskip
      cases hskip
  receives who caller hcaller job pick := by
    obtain ⟨s, caller', ys, events, step, hself, hys, hturned⟩ :=
      run.turned_of_closed closed hcaller (Caller.isFinished_of_receiving job) pick
    refine ⟨_, _, step, ?_⟩
    rw [hself]
    rcases hturned.of_closed closed with
      ⟨value, hoffer, -⟩ | ⟨-, hdeed, rfl, rfl⟩ | ⟨hskip, -⟩
    · rw [Caller.isReceiving_eq_false_of_offer hoffer] at job
      cases job
    · exact ⟨hdeed, rfl, hys⟩
    · simp [Caller.isReceiving, hskip] at job
  finished h caller hcaller := by
    obtain ⟨who, hwho⟩ := List.mem_iff_getElem?.mp hcaller
    have hdone := finished_or_parked h hwho
    rw [run.orderly.closed closed] at hdone
    exact hdone.resolve_right List.not_mem_nil

/-- All that the close of `c` settles for a run that goes on to `d`, after the history `before` and
with the history `later`. -/
structure SettledByClose (before : List (Occurrence α)) (c : Crowd α)
    (later : List (Occurrence α)) (d : Crowd α) : Prop where
  /-- It is the first close, it is told so, and no receive has come to nothing before it. -/
  first : c.close.1 = true
  none_before : ∀ changed, .closed changed ∉ before
  received_before : ∀ who, .did who (.received none) ∉ before
  /-- The channel stays closed, and every later close is told that it changed nothing. -/
  closed : d.shared.channel.closed = true
  drains : Drains c.shared.channel.ring.toList later d.shared.channel.ring.toList
  accepted : accepted later = []
  sent : d.shared.channel.stats.sent = c.shared.channel.stats.sent
  received : d.shared.channel.stats.received =
    c.shared.channel.stats.received + (delivered later).length
  rejected : d.shared.channel.stats.rejected =
    c.shared.channel.stats.rejected + (rejected later).length
  unblocked : Unblocked d

lemma Drains.accepted_eq_nil {xs ys : List α} (drains : Drains xs later ys) :
    accepted later = [] := by
  rw [accepted, select, List.filterMap_eq_nil_iff]
  intro occurrence hmem
  cases occurrence with
  | did who deed =>
    cases deed with
    | sent value result =>
      rw [drains.refused who value result hmem]
      rfl
    | received value => rfl
  | joined => rfl
  | closed => rfl

/-- The close that finds a channel open, whoever is parked on it then and whatever follows. -/
theorem Run.close_is_final (run : Run (ofChannel (Channel.ofCapacity capacity)) before c)
    (opened : c.shared.channel.closed = false) (after : Run c.close.2.1 later d) :
    SettledByClose before c later d := by
  obtain ⟨none_before, received_before⟩ := run.no_end_while_open opened
  obtain ⟨closed, drains⟩ := run.close.drains rfl after
  have hall := run.close.trans after
  have books := hall.books
  have hbefore := run.books
  have haccepted := drains.accepted_eq_nil
  have hclose : ∀ (f : Deed α → Option α), select f (before ++ [.closed c.close.1] ++ later) =
      select f before ++ select f later := by
    intro f
    rw [select_append, select_append]
    exact congrArg (· ++ select f later) (List.append_nil _)
  refine ⟨?_, none_before, received_before, closed, drains, haccepted, ?_, ?_, ?_,
    hall.unblocked closed⟩
  · simp [Crowd.close, Shared.close, Channel.close, opened]
  · have hsent := books.sent
    rw [accepted, hclose, List.length_append, ← accepted, ← accepted, haccepted, ← hbefore.sent]
      at hsent
    exact hsent
  · have hreceived := books.received
    rw [delivered, hclose, List.length_append, ← delivered, ← delivered, ← hbefore.received]
      at hreceived
    exact hreceived
  · have hrejected := books.rejected
    rw [History.rejected, hclose, List.length_append, ← History.rejected, ← History.rejected,
      ← hbefore.rejected] at hrejected
    exact hrejected

end

/-- A sender is parked on a full channel when it is closed, and a receiver comes for two values. -/
theorem parked_sender_gets_value_back : ∃ c d : Crowd Nat,
    Run (ofChannel (Channel.ofCapacity 1))
      [.joined [.send 1, .send 2], .did 0 (.sent 1 .accepted)] c ∧
    c.shared.channel.closed = false ∧ c.shared.senders = [0] ∧
    Run c.close.2.1
      [.joined [.receive, .receive], .did 1 (.received (some 1)), .closed false,
        .did 0 (.sent 2 (.rejected 2)), .did 1 (.received none)] d ∧
    SettledByClose
      [.joined [.send 1, .send 2], .did 0 (.sent 1 .accepted)] c
      [.joined [.receive, .receive], .did 1 (.received (some 1)), .closed false,
        .did 0 (.sent 2 (.rejected 2)), .did 1 (.received none)] d := by
  have opened : Run (ofChannel (Channel.ofCapacity 1 : Channel Nat)) [] _ := .start
  have parked := ((opened.call [.send 1, .send 2]).turn 0 0 rfl).turn 0 0 rfl
  have from_close : ∀ {history} {c : Crowd Nat}, Run (ofChannel (Channel.ofCapacity 1)) history c →
      Run c.close.2.1 [] c.close.2.1 := fun _ => .start
  have taken := ((from_close parked).call [.receive, .receive]).turn 1 0 rfl
  have ended := (taken.close.turn 0 0 rfl).turn 1 0 rfl
  exact ⟨_, _, parked, rfl, rfl, ended, parked.close_is_final rfl ended⟩

end Crowd
end Strand
