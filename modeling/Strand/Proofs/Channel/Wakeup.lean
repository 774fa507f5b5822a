import Strand.Proofs.Channel.Parking

/-! No wake-up is lost. One signal for each value put in and one for each value taken out suffice,
although whoever is woken can be overtaken and has to park again: as long as a receiver is parked,
the buffered values are no more than the receivers that are on their way, and as long as a
sender is parked, the free slots are no more than the senders on their way. -/
namespace Strand

namespace Crowd
variable {α : Type} {c d : Crowd α} {who pick : Nat} {xs : List α}

/-- Whoever is parked is owed no more than is already on the way to be seen. -/
structure Served (c : Crowd α) (buffered : Nat) : Prop where
  /-- The buffered values and the parked receivers are no more than the receives in hand. -/
  receivers : c.shared.receivers ≠ [] →
    buffered + c.shared.receivers.length ≤ c.callers.countP Caller.isReceiving
  /-- The free slots and the parked senders are no more than the sends in hand. -/
  senders : c.shared.senders ≠ [] →
    c.shared.channel.capacity + c.shared.senders.length ≤
      buffered + c.callers.countP fun caller => caller.offer?.isSome

namespace Served

lemma of_nobody (h : c.shared.parked = []) (buffered : Nat) : Served c buffered := by
  obtain ⟨hsenders, hreceivers⟩ := List.append_eq_nil_iff.mp h
  exact ⟨fun hne => absurd hreceivers hne, fun hne => absurd hsenders hne⟩

lemma call {buffered : Nat} (served : Served c buffered) (jobs : List (Job α)) :
    Served (c.call jobs) buffered where
  receivers h := by
    have := served.receivers h
    simp only [Crowd.call, List.countP_append]
    omega
  senders h := by
    have := served.senders h
    simp only [Crowd.call, List.countP_append]
    omega

/-- Those that are woken for no reason are on their way, too. -/
lemma wake {buffered : Nat} {senders receivers : List Nat} (served : Served c buffered)
    (fewer_senders : senders.Sublist c.shared.senders)
    (fewer_receivers : receivers.Sublist c.shared.receivers) :
    Served { c with shared := { c.shared with senders, receivers } } buffered where
  receivers hne := by
    have := served.receivers (ne_nil_of_sublist fewer_receivers hne)
    have := fewer_receivers.length_le
    dsimp only
    omega
  senders hne := by
    have := served.senders (ne_nil_of_sublist fewer_senders hne)
    have := fewer_senders.length_le
    dsimp only
    omega

lemma turn {t : Shared Nat α} {caller caller' : Caller α} {ys : List α} {deed : Option (Deed α)}
    (served : Served c xs.length) (orderly : Orderly c)
    (after : Orderly ⟨t, c.callers.set who caller'⟩) (hcaller : c.callers[who]? = some caller)
    (h : Turned c.shared who pick caller xs deed t caller' ys) :
    Served ⟨t, c.callers.set who caller'⟩ ys.length := by
  have hreceiving := countP_set_add hcaller (p := Caller.isReceiving) caller'
  have hsending := countP_set_add hcaller (p := fun caller => caller.offer?.isSome) caller'
  have hreceivers := after.length_receivers_le
  have hsenders := after.length_senders_le
  have hcapacity := h.capacity_eq
  have hclosed := orderly.closed
  cases h with
  | waitsForRoom job opened full =>
    constructor
    · intro hne
      have := served.receivers hne
      dsimp only
      omega
    · intro _
      dsimp only at hsenders ⊢
      omega
  | waitsForValue job opened =>
    constructor
    · intro _
      dsimp only at hreceivers ⊢
      rw [List.length_nil]
      omega
    · intro hne
      have := served.senders hne
      dsimp only
      omega
  | turnedAway job closed =>
    apply of_nobody
    exact hclosed closed
  | findsEnd job closed =>
    apply of_nobody
    exact hclosed closed
  | sends job opened room =>
    have hnot := Caller.isReceiving_eq_false_of_offer job
    simp only [hnot, Bool.false_eq_true, if_false] at hreceiving
    simp only [job, Option.isSome_some, if_true] at hsending
    constructor
    · intro hne
      have hold := ne_nil_of_wakeOne pick hne
      have := served.receivers hold
      have hwoken := length_wakeOne pick hold
      simp only [List.length_append, List.length_singleton]
      omega
    · intro hne
      have := served.senders hne
      simp only [List.length_append, List.length_singleton] at hcapacity ⊢
      omega
  | @takes x xs job =>
    have hnot : caller.offer?.isSome = false := by
      rw [Caller.offer_eq_none_of_receiving job]
      rfl
    simp only [job, if_true] at hreceiving
    simp only [hnot, Bool.false_eq_true, if_false] at hsending
    constructor
    · intro hne
      have := served.receivers hne
      simp only [List.length_cons] at this
      dsimp only
      omega
    · intro hne
      have hold := ne_nil_of_wakeOne pick hne
      have := served.senders hold
      have hwoken := length_wakeOne pick hold
      simp only [List.length_cons] at this hcapacity ⊢
      omega
  | skips job =>
    have hnot : caller.isReceiving = false := by simp [Caller.isReceiving, job]
    have hnone : caller.offer? = none := by simp [Caller.offer?, job]
    simp only [hnot, Bool.false_eq_true, if_false] at hreceiving
    simp only [hnone, Option.isSome_none, Bool.false_eq_true, if_false] at hsending
    constructor
    · intro hne
      have := served.receivers hne
      dsimp only
      omega
    · intro hne
      have := served.senders hne
      dsimp only
      omega

lemma ofChannel (channel : Channel α) (buffered : Nat) :
    Served (Crowd.ofChannel channel) buffered := of_nobody rfl _

/-- A close wakes everybody. -/
lemma close (c : Crowd α) (buffered : Nat) : Served c.close.2.1 buffered := of_nobody rfl _

end Served

theorem Run.served {capacity : Nat} {history : List (Occurrence α)}
    (run : Run (Crowd.ofChannel (Channel.ofCapacity capacity)) history c) :
    Served c c.shared.channel.len := by
  induction run with
  | start => exact Served.ofChannel _ _
  | call jobs _ ih => exact ih.call jobs
  | turn who pick run step ih =>
    have holds := run.books.holds
    have orderly := run.orderly
    obtain ⟨caller, t, caller', ys, hcaller, -, hwho, hturned, rfl⟩ := turn_cases holds step
    have after := orderly.turn hcaller hwho hturned
    have hbefore : _ = List.length _ := holds.len_eq
    have hafter : _ = List.length ys := (hturned.holds holds).len_eq
    rw [Channel.len, hbefore] at ih
    rw [Channel.len, hafter]
    exact ih.turn orderly after hcaller hturned
  | wake _ fewer_senders fewer_receivers ih => exact ih.wake fewer_senders fewer_receivers
  | close => exact Served.close _ _

end Crowd
end Strand
