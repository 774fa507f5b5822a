import Strand.Proofs.Channel.Conservation
import Strand.Proofs.Lists

/-! Who is parked. A caller is parked at most once, among the senders only with a value to send and
among the receivers only in need of one, and nobody is parked on a closed channel. So the callers
that are ready are those with work left, less those that are parked. -/
namespace Strand

section
variable {κ : Type} (parked : List κ) (pick : Nat)

lemma wakeOne_sublist : (wakeOne parked pick).2.Sublist parked := List.eraseIdx_sublist _ _

lemma ne_nil_of_wakeOne {parked : List κ} (h : (wakeOne parked pick).2 ≠ []) : parked ≠ [] :=
  ne_nil_of_sublist (wakeOne_sublist parked pick) h

lemma length_wakeOne {parked : List κ} (h : parked ≠ []) :
    (wakeOne parked pick).2.length + 1 = parked.length := by
  have hpos : 0 < parked.length := List.length_pos_iff.mpr h
  have hlt : pick % parked.length < parked.length := Nat.mod_lt _ hpos
  simp only [wakeOne, List.length_eraseIdx, hlt, if_true]
  omega

/-- At most one is woken. -/
lemma length_le_wakeOne : parked.length ≤ (wakeOne parked pick).2.length + 1 := by
  by_cases h : parked = []
  · rw [h]
    exact Nat.zero_le _
  · exact (length_wakeOne pick h).ge

end

namespace Crowd
variable {α : Type} {c : Crowd α} {who : Nat}

/-- A caller has a send in hand that is not done. -/
def IsSending (c : Crowd α) (who : Nat) : Prop :=
  ∃ caller, c.callers[who]? = some caller ∧ caller.offer?.isSome = true

/-- A caller has a receive in hand that is not done. -/
def IsReceiving (c : Crowd α) (who : Nat) : Prop :=
  ∃ caller, c.callers[who]? = some caller ∧ caller.isReceiving = true

/-- The parked callers are where they belong, and none is left on a closed channel. -/
structure Orderly (c : Crowd α) : Prop where
  nodup : c.shared.parked.Nodup
  sender : ∀ who ∈ c.shared.senders, c.IsSending who
  receiver : ∀ who ∈ c.shared.receivers, c.IsReceiving who
  closed : c.shared.channel.closed = true → c.shared.parked = []

lemma IsSending.not_receiving (h : c.IsSending who) : ¬c.IsReceiving who := by
  rintro ⟨caller, hcaller, hreceiving⟩
  obtain ⟨other, hother, hoffer⟩ := h
  rw [hcaller] at hother
  cases hother
  rw [Caller.offer_eq_none_of_receiving hreceiving] at hoffer
  cases hoffer

lemma mem_parked {s : Shared Nat α} : who ∈ s.parked ↔ who ∈ s.senders ∨ who ∈ s.receivers :=
  List.mem_append

/-- What another caller has in hand is not touched by a turn. -/
lemma IsSending.set {k : Nat} (h : c.IsSending k) (hne : who ≠ k) (s : Shared Nat α)
    (caller : Caller α) : IsSending ⟨s, c.callers.set who caller⟩ k := by
  obtain ⟨other, hother, hoffer⟩ := h
  exact ⟨other, by rw [← hother]; exact List.getElem?_set_ne hne, hoffer⟩

lemma IsReceiving.set {k : Nat} (h : c.IsReceiving k) (hne : who ≠ k) (s : Shared Nat α)
    (caller : Caller α) : IsReceiving ⟨s, c.callers.set who caller⟩ k := by
  obtain ⟨other, hother, hreceiving⟩ := h
  exact ⟨other, by rw [← hother]; exact List.getElem?_set_ne hne, hreceiving⟩

namespace Orderly

lemma ofChannel (channel : Channel α) : Orderly (Crowd.ofChannel channel) where
  nodup := List.nodup_nil
  sender _ h := by cases h
  receiver _ h := by cases h
  closed _ := rfl

lemma call (orderly : Orderly c) (jobs : List (Job α)) : Orderly (c.call jobs) where
  nodup := orderly.nodup
  sender who hwho := by
    obtain ⟨caller, hcaller, hoffer⟩ := orderly.sender who hwho
    have hlt := (List.getElem?_eq_some_iff.mp hcaller).1
    exact ⟨caller, by rw [← hcaller]; exact List.getElem?_append_left hlt, hoffer⟩
  receiver who hwho := by
    obtain ⟨caller, hcaller, hreceiving⟩ := orderly.receiver who hwho
    have hlt := (List.getElem?_eq_some_iff.mp hcaller).1
    exact ⟨caller, by rw [← hcaller]; exact List.getElem?_append_left hlt, hreceiving⟩
  closed := orderly.closed

lemma close (c : Crowd α) : Orderly c.close.2.1 where
  nodup := List.nodup_nil
  sender _ h := by cases h
  receiver _ h := by cases h
  closed _ := rfl

/-- Callers may be woken at any time. -/
lemma wake (orderly : Orderly c) {s : Shared Nat α}
    (hsenders : s.senders.Sublist c.shared.senders)
    (hreceivers : s.receivers.Sublist c.shared.receivers)
    (hclosed : s.channel.closed = c.shared.channel.closed) : Orderly ⟨s, c.callers⟩ where
  nodup := orderly.nodup.sublist (hsenders.append hreceivers)
  sender k hk := orderly.sender k (hsenders.subset hk)
  receiver k hk := orderly.receiver k (hreceivers.subset hk)
  closed hc := by
    have hnil := orderly.closed (hclosed ▸ hc)
    have hsub : s.parked.Sublist c.shared.parked := hsenders.append hreceivers
    rw [hnil] at hsub
    exact List.sublist_nil.mp hsub

/-- A caller that is not parked may go on to anything. -/
lemma set (orderly : Orderly c) (hwho : who ∉ c.shared.parked) (caller : Caller α) :
    Orderly ⟨c.shared, c.callers.set who caller⟩ where
  nodup := orderly.nodup
  sender k hk := by
    refine (orderly.sender k hk).set ?_ c.shared caller
    rintro rfl
    exact hwho (mem_parked.mpr (.inl hk))
  receiver k hk := by
    refine (orderly.receiver k hk).set ?_ c.shared caller
    rintro rfl
    exact hwho (mem_parked.mpr (.inr hk))
  closed := orderly.closed

/-- A turn that parks nobody may only take callers out of the parked ones. -/
lemma shrink (orderly : Orderly c) (hwho : who ∉ c.shared.parked) {s : Shared Nat α}
    (hsenders : s.senders.Sublist c.shared.senders)
    (hreceivers : s.receivers.Sublist c.shared.receivers)
    (hclosed : s.channel.closed = c.shared.channel.closed) (caller : Caller α) :
    Orderly ⟨s, c.callers.set who caller⟩ :=
  (orderly.wake hsenders hreceivers hclosed).set
    (fun hparked => hwho ((hsenders.append hreceivers).subset hparked)) caller

/-- A sender parks behind the others. -/
lemma parkSender (orderly : Orderly c) (hwho : who ∉ c.shared.parked) (h : c.IsSending who)
    (opened : c.shared.channel.closed = false) :
    Orderly ⟨{ c.shared with senders := c.shared.senders ++ [who] }, c.callers⟩ where
  nodup := by
    have hperm : (c.shared.senders ++ [who] ++ c.shared.receivers).Perm
        (who :: c.shared.parked) := by
      rw [List.append_assoc]
      exact List.perm_middle
    exact hperm.nodup_iff.mpr (List.nodup_cons.mpr ⟨hwho, orderly.nodup⟩)
  sender k hk := by
    rcases List.mem_append.mp hk with hk | hk
    · exact orderly.sender k hk
    · rw [List.mem_singleton.mp hk]
      exact h
  receiver := orderly.receiver
  closed hc := by
    rw [opened] at hc
    cases hc

lemma parkReceiver (orderly : Orderly c) (hwho : who ∉ c.shared.parked) (h : c.IsReceiving who)
    (opened : c.shared.channel.closed = false) :
    Orderly ⟨{ c.shared with receivers := c.shared.receivers ++ [who] }, c.callers⟩ where
  nodup := by
    have hperm : (c.shared.senders ++ (c.shared.receivers ++ [who])).Perm
        (who :: c.shared.parked) := by
      rw [← List.append_assoc]
      exact List.perm_append_singleton _ _
    exact hperm.nodup_iff.mpr (List.nodup_cons.mpr ⟨hwho, orderly.nodup⟩)
  sender := orderly.sender
  receiver k hk := by
    rcases List.mem_append.mp hk with hk | hk
    · exact orderly.receiver k hk
    · rw [List.mem_singleton.mp hk]
      exact h
  closed hc := by
    rw [opened] at hc
    cases hc

lemma turn {t : Shared Nat α} {pick : Nat} {caller caller' : Caller α} {xs ys : List α}
    {deed : Option (Deed α)} (orderly : Orderly c) (hcaller : c.callers[who]? = some caller)
    (hwho : who ∉ c.shared.parked) (h : Turned c.shared who pick caller xs deed t caller' ys) :
    Orderly ⟨t, c.callers.set who caller'⟩ := by
  have hsame := set_eq_self hcaller
  cases h with
  | waitsForRoom job opened =>
    rw [hsame]
    exact orderly.parkSender hwho ⟨caller, hcaller, by rw [job]; rfl⟩ opened
  | waitsForValue job opened =>
    rw [hsame]
    exact orderly.parkReceiver hwho ⟨caller, hcaller, job⟩ opened
  | turnedAway =>
    apply orderly.shrink hwho
    exacts [.refl _, .refl _, rfl]
  | sends =>
    apply orderly.shrink hwho
    exacts [.refl _, wakeOne_sublist _ _, rfl]
  | findsEnd =>
    apply orderly.shrink hwho
    exacts [.refl _, .refl _, rfl]
  | takes =>
    apply orderly.shrink hwho
    exacts [wakeOne_sublist _ _, .refl _, rfl]
  | skips =>
    apply orderly.shrink hwho
    exacts [.refl _, .refl _, rfl]

lemma unfinished (orderly : Orderly c) (h : who ∈ c.shared.parked) :
    ∃ caller, c.callers[who]? = some caller ∧ caller.isFinished = false := by
  rcases mem_parked.mp h with hsender | hreceiver
  · obtain ⟨caller, hcaller, hoffer⟩ := orderly.sender who hsender
    exact ⟨caller, hcaller, Caller.isFinished_of_offer hoffer⟩
  · obtain ⟨caller, hcaller, hreceiving⟩ := orderly.receiver who hreceiver
    exact ⟨caller, hcaller, Caller.isFinished_of_receiving hreceiving⟩

lemma length_senders_le (orderly : Orderly c) :
    c.shared.senders.length ≤ c.callers.countP fun caller => caller.offer?.isSome :=
  length_le_countP (orderly.nodup.sublist (List.sublist_append_left _ _)) orderly.sender

lemma length_receivers_le (orderly : Orderly c) :
    c.shared.receivers.length ≤ c.callers.countP Caller.isReceiving :=
  length_le_countP (orderly.nodup.sublist (List.sublist_append_right _ _)) orderly.receiver

/-- The ready callers and the parked ones are together those with work left. -/
theorem length_ready (orderly : Orderly c) :
    c.ready.length + c.shared.parked.length =
      c.callers.countP fun caller => !caller.isFinished := by
  have hperm : (c.ready ++ c.shared.parked).Perm
      (positions (fun caller : Caller α => !caller.isFinished) c.callers) := by
    have hready : ∀ who, who ∈ c.ready ↔ c.isReady who = true := by
      intro who
      simp only [ready, List.mem_filter, List.mem_range, and_iff_right_iff_imp]
      intro h
      obtain ⟨caller, hcaller, -⟩ := isReady_iff.mp h
      exact (List.getElem?_eq_some_iff.mp hcaller).1
    apply (List.perm_ext_iff_of_nodup ?_ nodup_positions).mpr
    · intro who
      rw [List.mem_append, hready, isReady_iff, mem_positions]
      constructor
      · rintro (⟨caller, hcaller, hleft, -⟩ | hparked)
        · exact ⟨caller, hcaller, by rw [hleft]; rfl⟩
        · obtain ⟨caller, hcaller, hleft⟩ := orderly.unfinished hparked
          exact ⟨caller, hcaller, by rw [hleft]; rfl⟩
      · rintro ⟨caller, hcaller, hleft⟩
        by_cases hparked : who ∈ c.shared.parked
        · exact .inr hparked
        · exact .inl ⟨caller, hcaller, by simpa using hleft, hparked⟩
    · refine List.nodup_append.mpr ⟨List.nodup_range.filter _, orderly.nodup, ?_⟩
      rintro who hwho _ hparked rfl
      obtain ⟨-, -, -, hnot⟩ := isReady_iff.mp ((hready who).mp hwho)
      exact hnot hparked
  rw [← List.length_append, hperm.length_eq, length_positions]

end Orderly

theorem Run.orderly {capacity : Nat} {history : List (Occurrence α)}
    (run : Run (Crowd.ofChannel (Channel.ofCapacity capacity)) history c) : Orderly c := by
  induction run with
  | start => exact Orderly.ofChannel _
  | call jobs _ ih => exact ih.call jobs
  | turn who pick run step ih =>
    obtain ⟨caller, t, caller', ys, hcaller, -, hwho, hturned, rfl⟩ :=
      turn_cases run.books.holds step
    exact ih.turn hcaller hwho hturned
  | wake _ fewer_senders fewer_receivers ih => exact ih.wake fewer_senders fewer_receivers rfl
  | close => exact Orderly.close _

end Crowd
end Strand
