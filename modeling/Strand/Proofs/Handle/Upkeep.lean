import Strand.Proofs.Handle.Growth

/-! A table keeps three accounts of one thing: the list of its free slots, the slots themselves, and
the number of values. Every call trusts that they agree, so it is written here once more with all
that must not happen to it: it stops as soon as it would leave the slots, write over a value, find a
value gone that it has just seen, or count below zero. On a sound table nothing stops it. -/
namespace Strand.Table
open Ledger
variable {α β : Type} {t t' : Table α} {log : List (Op α × Outcome α)}

/-- What must not happen in a call on a table. -/
inductive Fault
  /-- The index of a slot is that of none. -/
  | outOfRange
  /-- A value would be written over another one. -/
  | occupied
  /-- A slot that was seen to hold a value holds none. -/
  | vanished
  /-- One would be taken from a count of zero. -/
  | underflow
  deriving DecidableEq, Repr

/-- A call that writes to a table in place and may come to a fault. -/
abbrev Watched (α β : Type) := EStateM (HandleError ⊕ Fault) (Table α) β

namespace Watched

def fault (f : Fault) : Watched α β := throw (.inr f)

/-- A part of a call in which nothing can go wrong. -/
def plain (act : InPlace α β) : Watched α β := act.adaptExcept .inl

def slotAt (index : UInt32) : Watched α (Slot α) := do
  match (← get).slots[index.toNat]? with
  | some slot => return slot
  | none => fault .outOfRange

def fill (index : UInt32) (value : α) : Watched α Handle := do
  let slot ← slotAt index
  if slot.value.isSome then fault .occupied
  else
    plain (InPlace.writeSlot index { slot with value := some value })
    plain (InPlace.write fun t => { t with occupied := t.occupied + 1 })
    return ⟨index, slot.generation⟩

def insert (value : α) : Watched α Handle := do
  let index ← plain InPlace.vacancy
  fill index value

def countDown : Watched α Unit := do
  let t ← get
  if t.occupied = 0 then fault .underflow
  else plain (InPlace.write fun t => { t with occupied := t.occupied - 1 })

def remove (h : Handle) : Watched α α := do
  let _ ← plain (InPlace.liveSlot h)
  let slot ← slotAt h.index
  match slot.value with
  | some value =>
    plain (InPlace.writeSlot h.index { slot with value := none })
    plain (InPlace.recycle h.index slot.generation)
    countDown
    return value
  | none => fault .vanished

def inspect (h : Handle) : Watched α α := do
  let slot ← plain (InPlace.liveSlot h)
  match slot.value with
  | some value => return value
  | none => fault .vanished

def decoded (raw : UInt64) (act : Handle → Watched α β) : Watched α β :=
  match Handle.ofRaw raw with
  | .ok h => act h
  | .error e => plain (InPlace.refuse e)

/-- What a call comes to and the table that it leaves, or the fault that stopped it. -/
def settle (outcome : β → Outcome α) (act : Watched α β) (t : Table α) :
    Except Fault (Outcome α × Table α) :=
  match act.run t with
  | .ok b t => .ok (outcome b, t)
  | .error (.inl e) t => .ok (.failed e, t)
  | .error (.inr f) _ => .error f

end Watched

/-- One call, watched. -/
def attempt (t : Table α) : Op α → Except Fault (Outcome α × Table α)
  | .insert value => Watched.settle .issued (Watched.insert value) t
  | .remove h => Watched.settle .yielded (Watched.remove h) t
  | .removeRaw raw => Watched.settle .yielded (Watched.decoded raw Watched.remove) t
  | .inspect h => Watched.settle .yielded (Watched.inspect h) t
  | .findRaw raw => Watched.settle .yielded (Watched.decoded raw Watched.inspect) t

namespace Watched

lemma plain_run (act : InPlace α β) (t : Table α) : (plain act).run t =
    match act.run t with
    | .ok b t => .ok b t
    | .error e t => .error (.inl e) t := by
  simp only [plain, EStateM.run, EStateM.adaptExcept]
  cases act t <;> rfl

lemma slotAt_run (index : UInt32) (t : Table α) : (slotAt index).run t =
    match t.slots[index.toNat]? with
    | some slot => .ok slot t
    | none => .error (.inr .outOfRange) t := by
  simp only [slotAt, EStateM.run_bind, EStateM.run_get]
  cases t.slots[index.toNat]? <;> rfl

lemma fill_run {index : UInt32} {generation : Generation}
    (vacant : t.slots[index.toNat]? = some ⟨generation, none⟩) (value : α) :
    (fill index value).run t = .ok ⟨index, generation⟩
      { t with
        slots := t.slots.setIfInBounds index.toNat ⟨generation, some value⟩
        occupied := t.occupied + 1 } := by
  simp only [fill, EStateM.run_bind, slotAt_run, vacant]
  rfl

lemma countDown_run (t : Table α) : countDown.run t =
    if t.occupied = 0 then .error (.inr .underflow) t
    else .ok () { t with occupied := t.occupied - 1 } := by
  simp only [countDown, EStateM.run_bind, EStateM.run_get]
  split <;> rfl

/-- What is taken off the free list, or made, is a slot that is there and vacant. -/
lemma vacant_of_vacancy {index : UInt32} (sound : t.Sound)
    (found : InPlace.vacancy.run t = .ok index t') :
    ∃ generation, t'.slots[index.toNat]? = some ⟨generation, none⟩ := by
  simp only [InPlace.vacancy, EStateM.run_bind, EStateM.run_get] at found
  cases hfree : t.free with
  | cons first free =>
    simp only [hfree, EStateM.run_bind, InPlace.write_run, EStateM.run_pure] at found
    cases found
    exact sound.vacant index (hfree ▸ List.mem_cons_self)
  | nil =>
    by_cases hroom : t.slots.size < maxSlots
    · have hindex : (UInt32.ofNat t.slots.size).toNat = t.slots.size :=
        UInt32.toNat_ofNat_of_lt' hroom
      simp only [hfree, if_pos hroom, EStateM.run_bind, InPlace.write_run, EStateM.run_pure]
        at found
      cases found
      rw [hindex]
      exact ⟨.first, Array.getElem?_push_size⟩
    · simp only [hfree, if_neg hroom, InPlace.refuse_run] at found
      cases found

lemma insert_run (sound : t.Sound) (value : α) :
    (insert value).run t = (plain (InPlace.insert value)).run t := by
  simp only [insert, InPlace.insert, EStateM.run_bind, plain_run]
  cases hvacancy : InPlace.vacancy.run t with
  | error e t' => rfl
  | ok index t' =>
    obtain ⟨generation, vacant⟩ := vacant_of_vacancy sound hvacancy
    simp only [fill_run vacant, EStateM.run_get, vacant]
    rfl

/-- A value that was seen is there to be taken, and has been counted. -/
lemma remove_run (sound : t.Sound) (h : Handle) :
    (remove h).run t = (plain (InPlace.remove h)).run t := by
  simp only [remove, InPlace.remove, EStateM.run_bind, plain_run, InPlace.liveSlot_run]
  cases hfind : t.find h with
  | error e => rfl
  | ok value =>
    obtain ⟨t', hstep⟩ := exists_remove hfind
    have hcount := Nat.ne_of_gt ((remove_cases hstep).occupied_pos sound)
    simp only [slotAt_run, find_eq_ok_iff.mp hfind, InPlace.recycle, EStateM.run_bind, plain_run,
      InPlace.writeSlot_run]
    cases h.generation.next? with
    | none => simp only [EStateM.run_pure, countDown_run, if_neg hcount, InPlace.write_run]
    | some next =>
      simp only [EStateM.run_bind, EStateM.run_pure, InPlace.writeSlot_run, InPlace.write_run,
        countDown_run, if_neg hcount]

lemma inspect_run (t : Table α) (h : Handle) :
    (inspect h).run t = (plain (InPlace.inspect h)).run t := by
  simp only [inspect, InPlace.inspect, EStateM.run_bind, plain_run, InPlace.liveSlot_run]
  cases t.find h <;> rfl

lemma decoded_run {act : Handle → Watched α β} {act' : Handle → InPlace α β}
    (same : ∀ h, (act h).run t = (plain (act' h)).run t) (raw : UInt64) :
    (decoded raw act).run t = (plain (InPlace.decoded raw act')).run t := by
  simp only [decoded, InPlace.decoded]
  cases Handle.ofRaw raw with
  | ok h => exact same h
  | error e => rfl

lemma settle_eq {act : Watched α β} {act' : InPlace α β} (same : act.run t = (plain act').run t)
    (outcome : β → Outcome α) : settle outcome act t = .ok (InPlace.settle outcome act' t) := by
  simp only [settle, InPlace.settle, same, plain_run]
  cases act'.run t <;> rfl

end Watched

/-- Nothing that must not happen does happen to a sound table. -/
theorem attempt_eq_enact (sound : t.Sound) (op : Op α) : t.attempt op = .ok (t.enact op) := by
  cases op with
  | insert value => exact Watched.settle_eq (Watched.insert_run sound value) _
  | remove h => exact Watched.settle_eq (Watched.remove_run sound h) _
  | inspect h => exact Watched.settle_eq (Watched.inspect_run t h) _
  | removeRaw raw =>
    exact Watched.settle_eq (Watched.decoded_run (fun h => Watched.remove_run sound h) raw) _
  | findRaw raw =>
    exact Watched.settle_eq (Watched.decoded_run (fun h => Watched.inspect_run t h) raw) _

/-- On a table that is not sound it does. -/
example : (⟨#[], [0], 0⟩ : Table Nat).attempt (.insert 5) = .error .outOfRange := rfl

example : (⟨#[⟨.first, some 4⟩], [], 0⟩ : Table Nat).attempt (.remove ⟨0, .first⟩) =
    .error .underflow := rfl

/-- The slots that are vacant and not free. -/
def retirees (t : Table α) : List Nat :=
  (List.range t.slots.size).filter fun i =>
    (t.slots[i]?.bind Slot.value).isNone ∧ UInt32.ofNat i ∉ t.free

lemma mem_retirees_iff {index : UInt32} : index.toNat ∈ retirees t ↔
    (∃ generation, t.slots[index.toNat]? = some ⟨generation, none⟩) ∧ index ∉ t.free := by
  rw [retirees, List.mem_filter, List.mem_range, decide_eq_true_eq, UInt32.ofNat_toNat,
    ← and_assoc]
  refine and_congr_left fun _ => ?_
  constructor
  · rintro ⟨hlt, hvacant⟩
    obtain ⟨⟨generation, value⟩, hslot⟩ : ∃ slot, t.slots[index.toNat]? = some slot :=
      ⟨_, Array.getElem?_eq_getElem hlt⟩
    rw [hslot, Option.bind_some, Option.isNone_iff_eq_none] at hvacant
    exact ⟨generation, hvacant ▸ hslot⟩
  · rintro ⟨generation, hslot⟩
    exact ⟨(Array.getElem?_eq_some_iff.mp hslot).1, by rw [hslot]; rfl⟩

namespace Recorded
variable {index : UInt32} {generation : Generation}

/-- A vacant slot has been given out under its generation exactly if it is not free. -/
lemma issued_iff_of_vacant (recorded : Recorded log t)
    (vacant : t.slots[index.toNat]? = some ⟨generation, none⟩) :
    (Handle.mk index generation).toRaw ∈ (issued log).map Prod.fst ↔ index ∉ t.free := by
  have hspent : t.Spent ⟨index, generation⟩ ↔ _ := spent_iff_of_slot vacant
  rw [recorded.tracks.spent, hspent]
  simp only [Nat.lt_irrefl, false_or, true_and]

lemma removed_of_vacant (recorded : Recorded log t)
    (vacant : t.slots[index.toNat]? = some ⟨generation, none⟩) (not_free : index ∉ t.free) :
    (Handle.mk index generation).toRaw ∈ removed log := by
  have hissued := (recorded.issued_iff_of_vacant vacant).mpr not_free
  obtain ⟨⟨raw, v⟩, hentry, hraw⟩ := List.mem_map.mp hissued
  dsimp only at hraw
  subst hraw
  by_contra hkept
  have hslot := find_eq_ok_iff.mp ((recorded.tracks.live _ v).mpr ⟨hentry, hkept⟩)
  rw [vacant] at hslot
  cases hslot

lemma toNat_of_vacant (recorded : Recorded log t)
    (vacant : t.slots[index.toNat]? = some ⟨generation, none⟩) (not_free : index ∉ t.free) :
    generation.val.toNat = 4294967295 :=
  Generation.next?_eq_none_iff.mp
    ((recorded.tracks.sound.retired index generation vacant).resolve_left not_free)

lemma mem_free_iff (recorded : Recorded log t) : index ∈ t.free ↔
    ∃ generation, t.slots[index.toNat]? = some ⟨generation, none⟩ ∧
      (Handle.mk index generation).toRaw ∉ (issued log).map Prod.fst := by
  constructor
  · intro hfree
    obtain ⟨generation, vacant⟩ := recorded.tracks.sound.vacant index hfree
    exact ⟨generation, vacant, fun hissued =>
      (recorded.issued_iff_of_vacant vacant).mp hissued hfree⟩
  · rintro ⟨generation, vacant, hissued⟩
    rwa [recorded.issued_iff_of_vacant vacant, not_not] at hissued

/-- The retired slots are those of the numbers that were taken back at the last generation. -/
lemma mem_retirees_iff (recorded : Recorded log t) (i : Nat) : i ∈ retirees t ↔
    i ∈ (retired log).map fun raw => raw.toNat % 4294967296 := by
  have tracks := recorded.tracks
  constructor
  · intro hi
    have hlt : i < t.slots.size := List.mem_range.mp (List.mem_of_mem_filter hi)
    have hindex : (UInt32.ofNat i).toNat = i :=
      UInt32.toNat_ofNat_of_lt' (Nat.lt_of_lt_of_le hlt tracks.sound.size_le)
    rw [← hindex, Table.mem_retirees_iff] at hi
    obtain ⟨⟨generation, vacant⟩, hfree⟩ := hi
    have hremoved := recorded.removed_of_vacant vacant hfree
    have hgen := recorded.toNat_of_vacant vacant hfree
    refine List.mem_map.mpr ⟨_, List.mem_filter.mpr ⟨hremoved, ?_⟩, ?_⟩
    · rw [decide_eq_true_eq, Handle.toNat_toRaw, hgen]
      have hbound := (UInt32.ofNat i).toNat_lt
      dsimp only
      omega
    · rw [Handle.toNat_toRaw_mod, hindex]
  · intro hi
    obtain ⟨raw, hraw, rfl⟩ := List.mem_map.mp hi
    have hremoved := List.mem_of_mem_filter hraw
    obtain ⟨h, rfl, hfree, value, hslot⟩ := recorded.slot_of_mem (List.mem_append_right _ hraw)
    rw [h.toNat_toRaw_mod, Table.mem_retirees_iff]
    refine ⟨⟨h.generation, ?_⟩, hfree⟩
    cases value with
    | none => exact hslot
    | some v => exact absurd hremoved ((tracks.live h v).mp (find_eq_ok_iff.mpr hslot)).2

lemma length_retirees (recorded : Recorded log t) :
    (retirees t).length = (retired log).length := by
  have hnodup := recorded.nodup_taken
  rw [taken, List.map_append] at hnodup
  have hperm : (retirees t).Perm ((retired log).map fun raw => raw.toNat % 4294967296) :=
    (List.perm_ext_iff_of_nodup (List.nodup_range.filter _)
      (List.nodup_append'.mp hnodup).2.1).mpr recorded.mem_retirees_iff
  rw [hperm.length_eq, List.length_map]

end Recorded

lemma isEmpty_iff (sound : t.Sound) :
    t.isEmpty = true ↔ ∀ slot ∈ t.slots, slot.value = none := by
  rw [isEmpty, size, beq_iff_eq, sound.occupied_eq, List.countP_eq_zero]
  simp only [Array.mem_toList_iff, Option.not_isSome_iff_eq_none]

/-- How the accounts of a table with this log agree. -/
structure InStep (log : List (Op α × Outcome α)) (t : Table α) : Prop where
  nodup : t.free.Nodup
  /-- A slot is free exactly if it is vacant and has not been given out under its generation. -/
  mem_free_iff : ∀ index : UInt32, index ∈ t.free ↔
    ∃ generation, t.slots[index.toNat]? = some ⟨generation, none⟩ ∧
      (Handle.mk index generation).toRaw ∉ (issued log).map Prod.fst
  free_lt : ∀ index ∈ t.free, index.toNat < t.slots.size
  /-- Every other vacant slot is at the last generation and has been given back under it. -/
  retired : ∀ (index : UInt32) generation,
    t.slots[index.toNat]? = some ⟨generation, none⟩ → index ∉ t.free →
      generation.val = 4294967295 ∧ (Handle.mk index generation).toRaw ∈ removed log
  generation_ne_zero : ∀ slot ∈ t.slots, slot.generation.val ≠ 0
  size_eq : t.size = t.slots.toList.countP fun slot => slot.value.isSome
  isEmpty_iff : t.isEmpty = true ↔ ∀ slot ∈ t.slots, slot.value = none
  /-- Every slot is counted once. -/
  slots_size_eq : t.slots.size = t.size + t.free.length + (retirees t).length
  slots_size_le : t.slots.size ≤ 4294967296
  /-- No call comes to a fault, whatever it is and whatever it names. -/
  attempt_eq : ∀ op, t.attempt op = .ok (t.perform op)

/-- After any calls in any order, the free list, the slots and the counter of a table agree, and
therefore no call leaves the slots, writes over a value, loses one or counts below zero. -/
theorem performAll_in_step (ops : List (Op α)) :
    InStep ((empty : Table α).performAll ops).1 ((empty : Table α).performAll ops).2 := by
  have recorded := recorded_performAll ops
  have sound := recorded.tracks.sound
  have hparts := recorded.slots_size_eq
  rw [← recorded.length_stored, ← recorded.length_retirees] at hparts
  refine ⟨sound.nodup, fun index => recorded.mem_free_iff, fun index hfree => ?_,
    fun index generation vacant not_free => ⟨?_, recorded.removed_of_vacant vacant not_free⟩,
    fun slot _ => slot.generation.ne_zero, sound.occupied_eq, isEmpty_iff sound, by omega,
    sound.size_le, fun op => by rw [attempt_eq_enact sound, enact_eq_perform sound]⟩
  · obtain ⟨generation, vacant⟩ := sound.vacant index hfree
    exact (Array.getElem?_eq_some_iff.mp vacant).1
  · exact UInt32.toNat_inj.mp (recorded.toNat_of_vacant vacant not_free)

end Strand.Table
