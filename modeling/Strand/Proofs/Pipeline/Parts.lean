import Strand.Proofs.Channel.Closing
import Strand.Proofs.Pipeline.Chores

/-! The parts of the threads of a pipeline on its channel. A producer has sent the first of its
values and has the others in hand; a consumer holds what it has received so far. As long as no
producer is left when the channel is closed, no value is turned away. -/
namespace Strand.Pipeline
open History

variable {plan : Plan}

/-- What a thread has received by the collections that it has finished. -/
def collection (caller : Caller Parcel) : List Parcel :=
  caller.answers.flatMap fun
    | .collected items => items
    | _ => []

lemma collected_eq (p : Pipeline) (consumers : Nat) :
    p.collected consumers = (p.crowd.callers.take consumers).flatMap collection := rfl

/-- Where the thread at a position stands in its part, and what it has done on the channel. -/
inductive Plays (plan : Plan) (who : Nat) : Caller Parcel → List (Deed Parcel) → Prop
  | sends {producer sent left} (role : who = plan.consumers + producer)
      (split : plan.parcelsOf producer = sent ++ left) :
      Plays plan who ⟨left.map .send, [], sent.map fun _ => .sent .accepted⟩
        (sent.map fun parcel => .sent parcel .accepted)
  | drains {items} (role : who < plan.consumers) :
      Plays plan who ⟨[.collect none], items, []⟩ (items.map fun parcel => .received (some parcel))
  | drained {items} (role : who < plan.consumers) :
      Plays plan who ⟨[], [], [.collected items]⟩
        ((items.map fun parcel => .received (some parcel)) ++ [.received none])

namespace Plays
variable {who : Nat} {caller caller' : Caller Parcel} {deeds : List (Deed Parcel)}

lemma ofJobs {jobs : List (Job Parcel)} (h : plan.jobs[who]? = some jobs) :
    Plays plan who (Caller.ofJobs jobs) [] := by
  rcases Plan.role h with ⟨role, rfl⟩ | ⟨k, role, rfl⟩
  · exact @drains plan who [] role
  · exact @sends plan who k [] _ role rfl

lemma offer_eq_none_of_finished (h : caller.isFinished = true) : caller.offer? = none := by
  rw [Caller.isFinished, List.isEmpty_iff] at h
  exact Caller.offer_eq_none_of_nil h

lemma offer_eq_none (plays : Plays plan who caller deeds) (role : who < plan.consumers) :
    caller.offer? = none := by
  cases plays with
  | sends producer => omega
  | drains | drained => rfl

/-- A consumer that has met no end goes on receiving. -/
lemma isReceiving (plays : Plays plan who caller deeds) (role : who < plan.consumers)
    (unended : .received none ∉ deeds) : caller.isReceiving = true := by
  cases plays with
  | sends producer => omega
  | drains => rfl
  | drained => exact absurd (List.mem_append_right _ List.mem_cons_self) unended

/-- A producer that is not done has a value to send. -/
lemma offer_isSome (plays : Plays plan who caller deeds) (role : plan.consumers ≤ who)
    (unfinished : caller.isFinished = false) : caller.offer?.isSome = true := by
  cases plays with
  | @sends producer sent left =>
    cases left with
    | nil => cases unfinished
    | cons => rfl
  | drains role' | drained role' => omega

section
variable {s t : Shared Nat Parcel} {pick : Nat} {xs ys : List Parcel} {deed : Option (Deed Parcel)}

/-- A turn goes on with the part, unless it is a send on a closed channel. -/
theorem turn (plays : Plays plan who caller deeds)
    (h : Crowd.Turned s who pick caller xs deed t caller' ys)
    (welcome : s.channel.closed = true → caller.offer? = none) :
    Plays plan who caller' (deeds ++ deed.toList) := by
  cases h with
  | waitsForRoom | waitsForValue =>
    rw [Option.toList_none, List.append_nil]
    exact plays
  | turnedAway job closed =>
    rw [welcome closed] at job
    cases job
  | @sends xs value job =>
    cases plays with
    | @sends producer sent left role split =>
      cases left with
      | nil => cases job
      | cons first left =>
        cases job
        rw [List.append_cons] at split
        simpa [Caller.answer] using sends role split
    | drains | drained => cases job
  | findsEnd job =>
    cases plays with
    | @sends producer sent left => cases left <;> cases job
    | drains role => exact drained role
    | drained => cases job
  | @takes x xs job =>
    cases plays with
    | @sends producer sent left => cases left <;> cases job
    | @drains items role =>
      have after := @drains plan who (items ++ [x]) role
      simpa [Caller.receive, Caller.gather] using after
    | drained => cases job
  | skips job =>
    cases plays with
    | @sends producer sent left => cases left <;> cases job
    | drains | drained => cases job

/-- Whoever has nothing to send does not come to have something to send. -/
lemma offer_eq_none_of_turn (plays : Plays plan who caller deeds)
    (h : Crowd.Turned s who pick caller xs deed t caller' ys) (hoffer : caller.offer? = none) :
    caller'.offer? = none := by
  have after := plays.turn h fun _ => hoffer
  cases plays with
  | @sends producer sent left =>
    cases left with
    | nil => cases h.unfinished
    | cons => cases hoffer
  | drains role | drained role => exact after.offer_eq_none role

end

/-- No value comes back to its sender. -/
lemma rejected_eq (plays : Plays plan who caller deeds) :
    deeds.filterMap Deed.rejected? = [] := by
  cases plays with
  | sends => simp [List.filterMap_map, Deed.rejected?, Function.comp_def]
  | drains | drained => simp [List.filterMap_map, Deed.rejected?, Function.comp_def]

/-- Only the thread of a producer sends what comes from there. -/
lemma role_of_accepted (plays : Plays plan who caller deeds) {parcel : Parcel}
    (h : parcel ∈ deeds.filterMap Deed.accepted?) :
    who = plan.consumers + parcel.producer ∧ parcel.producer < plan.producers.length := by
  cases plays with
  | @sends producer sent left role split =>
    have hsent : parcel ∈ sent := by
      simpa [List.filterMap_map, Deed.accepted?, Function.comp_def] using h
    have hmem : parcel ∈ plan.parcelsOf producer := by
      rw [split]
      exact List.mem_append_left _ hsent
    obtain ⟨value, hvalue, rfl⟩ := List.mem_map.mp hmem
    refine ⟨role, ?_⟩
    by_contra hge
    rw [List.getElem?_eq_none (Nat.le_of_not_lt hge)] at hvalue
    cases hvalue
  | drains | drained => simp [List.filterMap_map, Deed.accepted?, Function.comp_def] at h

/-- A producer that is done has sent all of its values in order. -/
lemma accepted_eq (plays : Plays plan who caller deeds) (h : caller.isFinished = true)
    {producer : Nat} (role : who = plan.consumers + producer) :
    deeds.filterMap Deed.accepted? = plan.parcelsOf producer := by
  cases plays with
  | @sends other sent left role' split =>
    obtain rfl : other = producer := by omega
    obtain rfl : left = [] := by
      rw [Caller.isFinished, List.isEmpty_iff, List.map_eq_nil_iff] at h
      exact h
    rw [split, List.append_nil]
    simp [List.filterMap_map, Deed.accepted?, Function.comp_def]
  | drains role' | drained role' => omega

/-- Only consumers receive. -/
lemma role_of_delivered (plays : Plays plan who caller deeds) {parcel : Parcel}
    (h : parcel ∈ deeds.filterMap Deed.delivered?) : who < plan.consumers := by
  cases plays with
  | sends => simp [List.filterMap_map, Deed.delivered?, Function.comp_def] at h
  | drains role | drained role => exact role

/-- A consumer that is done has collected all that it has received, and has met the end. -/
lemma collection_eq (plays : Plays plan who caller deeds) (h : caller.isFinished = true)
    (role : who < plan.consumers) :
    collection caller = deeds.filterMap Deed.delivered? ∧ .received none ∈ deeds := by
  cases plays with
  | sends role' => omega
  | drains => cases h
  | drained => simp [collection, List.filterMap_append, List.filterMap_map, Deed.delivered?,
      Function.comp_def]

end Plays

/-- How the threads of a plan stand on its channel after some history. -/
structure Playing (plan : Plan) (history : List (Occurrence Parcel)) (crowd : Crowd Parcel) :
    Prop where
  run : Crowd.Run (Crowd.ofChannel (Channel.ofCapacity plan.capacity)) history crowd
  parts : ∀ (who : Nat) (caller : Caller Parcel), crowd.callers[who]? = some caller →
    Plays plan who caller (deedsOf who history)
  /-- When the channel is closed, nobody has anything left to send. -/
  unsent : crowd.shared.channel.closed = true → ∀ caller ∈ crowd.callers, caller.offer? = none

namespace Playing
variable {history : List (Occurrence Parcel)} {crowd crowd' : Crowd Parcel}

lemma start (plan : Plan) :
    Playing plan [] (Crowd.ofChannel (Channel.ofCapacity plan.capacity)) where
  run := .start
  parts who caller h := by cases h
  unsent _ caller h := by cases h

lemma call (playing : Playing plan history crowd) (opened : crowd.shared.channel.closed = false)
    {jobs : List (Job Parcel)} (next : plan.jobs[crowd.callers.length]? = some jobs) :
    Playing plan (history ++ [.joined jobs]) (crowd.call jobs) where
  run := playing.run.call jobs
  parts who caller hcaller := by
    have hdeeds : deedsOf who (history ++ [.joined jobs]) = deedsOf who history := by
      simp [deedsOf]
    rw [hdeeds]
    rcases Nat.lt_or_ge who crowd.callers.length with hlt | hge
    · rw [Crowd.call, List.getElem?_append_left hlt] at hcaller
      exact playing.parts who caller hcaller
    · obtain rfl : who = crowd.callers.length := by
        have hlt := (List.getElem?_eq_some_iff.mp hcaller).1
        simp only [Crowd.call, List.length_append, List.length_singleton] at hlt
        omega
      rw [Crowd.call, List.getElem?_concat_length, Option.some.injEq] at hcaller
      rw [playing.run.accounts.stranger _ (Nat.le_refl _), ← hcaller]
      exact Plays.ofJobs next
  unsent closed := by
    have hopened : (crowd.call jobs).shared.channel.closed = false := opened
    rw [hopened] at closed
    cases closed

lemma turn (playing : Playing plan history crowd) {who pick : Nat} {events : List Channel.Event}
    (step : crowd.turn who pick = some (crowd', events)) :
    Playing plan (history ++ entry who (crowd.deed? who)) crowd' := by
  have hrun := playing.run.turn who pick step
  obtain ⟨caller, s, caller', ys, hcaller, -, -, hturned, rfl⟩ :=
    Crowd.turn_cases playing.run.books.holds step
  have plays := playing.parts who caller hcaller
  have hmem := List.mem_of_getElem? hcaller
  refine ⟨hrun, fun k other hother => ?_, fun closed other hother => ?_⟩
  · rw [deedsOf_append]
    by_cases hk : who = k
    · subst hk
      rw [List.getElem?_set_self (List.getElem?_eq_some_iff.mp hcaller).1] at hother
      cases hother
      rw [deedsOf_entry_self]
      exact plays.turn hturned fun closed => playing.unsent closed caller hmem
    · rw [List.getElem?_set_ne hk] at hother
      rw [deedsOf_entry_ne hk, List.append_nil]
      exact playing.parts k other hother
  · rw [hturned.closed_eq] at closed
    rcases List.mem_or_eq_of_mem_set hother with hold | rfl
    · exact playing.unsent closed other hold
    · exact plays.offer_eq_none_of_turn hturned (playing.unsent closed caller hmem)

lemma close (playing : Playing plan history crowd)
    (unsent : ∀ caller ∈ crowd.callers, caller.offer? = none) :
    Playing plan (history ++ [.closed crowd.close.1]) crowd.close.2.1 where
  run := playing.run.close
  parts who caller hcaller := by
    have hdeeds : deedsOf who (history ++ [.closed crowd.close.1]) = deedsOf who history := by
      simp [deedsOf]
    rw [hdeeds]
    exact playing.parts who caller hcaller
  unsent _ := unsent

end Playing

end Strand.Pipeline
