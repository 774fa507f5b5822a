import Strand.Handle.Table
import Strand.Proofs.Handle.Word
import Strand.Proofs.Lists

/-! What the two operations that change a table do to its slots. An insertion fills the slot freed
last or makes a new one, a removal passes its slot on to the next generation or retires it; all
other slots stay as they are. `Sound` is what every table keeps to: its free list and its counter
agree with its slots. -/
namespace Strand.Table
variable {α : Type} {t t' : Table α} {h : Handle} {v : α} {i : Nat}

/-- A table whose free list and counter agree with its slots. -/
structure Sound (t : Table α) : Prop where
  nodup : t.free.Nodup
  vacant : ∀ index ∈ t.free, ∃ generation, t.slots[index.toNat]? = some ⟨generation, none⟩
  /-- A vacant slot that is not free has used up its generations. -/
  retired : ∀ (index : UInt32) generation, t.slots[index.toNat]? = some ⟨generation, none⟩ →
    index ∈ t.free ∨ generation.next? = none
  occupied_eq : t.occupied = t.slots.toList.countP fun slot => slot.value.isSome
  size_le : t.slots.size ≤ maxSlots

/-- The two ways to insert a value under a handle. -/
inductive Inserted (t : Table α) (v : α) (h : Handle) : Table α → Prop
  | fills {free} (freed : t.free = h.index :: free)
      (vacant : t.slots[h.index.toNat]? = some ⟨h.generation, none⟩) :
      Inserted t v h
        { slots := t.slots.setIfInBounds h.index.toNat ⟨h.generation, some v⟩
          free := free
          occupied := t.occupied + 1 }
  | makes (nothing_free : t.free = []) (room : t.slots.size < maxSlots)
      (index_eq : h.index.toNat = t.slots.size) (first : h.generation = .first) :
      Inserted t v h
        { slots := t.slots.push ⟨h.generation, some v⟩
          free := []
          occupied := t.occupied + 1 }

/-- The two ways to remove the value of a handle. -/
inductive Removed (t : Table α) (h : Handle) (v : α) : Table α → Prop
  | recycles {next} (live : t.slots[h.index.toNat]? = some ⟨h.generation, some v⟩)
      (going_on : h.generation.next? = some next) :
      Removed t h v
        { slots := t.slots.setIfInBounds h.index.toNat ⟨next, none⟩
          free := h.index :: t.free
          occupied := t.occupied - 1 }
  | retires (live : t.slots[h.index.toNat]? = some ⟨h.generation, some v⟩)
      (last : h.generation.next? = none) :
      Removed t h v
        { slots := t.slots.setIfInBounds h.index.toNat ⟨h.generation, none⟩
          free := t.free
          occupied := t.occupied - 1 }

/-- A handle reaches what its slot holds under its generation. -/
theorem find_eq_ok_iff :
    t.find h = .ok v ↔ t.slots[h.index.toNat]? = some ⟨h.generation, some v⟩ := by
  unfold find
  cases hslot : t.slots[h.index.toNat]? with
  | none => simp
  | some slot =>
    obtain ⟨generation, value⟩ := slot
    cases value with
    | none => simp
    | some w =>
      by_cases hgen : generation = h.generation
      · simp [hgen]
      · simp [hgen]

theorem insert_cases (sound : t.Sound) (hstep : t.insert v = .ok (h, t')) : Inserted t v h t' := by
  unfold insert at hstep
  cases hfree : t.free with
  | cons index free =>
    obtain ⟨generation, hslot⟩ := sound.vacant index (by rw [hfree]; exact List.mem_cons_self)
    simp only [hfree, hslot] at hstep
    cases hstep
    exact .fills hfree hslot
  | nil =>
    simp only [hfree] at hstep
    split at hstep
    next hroom =>
      cases hstep
      refine .makes hfree hroom ?_ rfl
      exact UInt32.toNat_ofNat_of_lt' hroom
    · cases hstep

theorem remove_cases (hstep : t.remove h = .ok (v, t')) : Removed t h v t' := by
  unfold remove at hstep
  cases hfind : t.find h with
  | error e => simp [hfind] at hstep
  | ok w =>
    simp only [hfind] at hstep
    cases hnext : h.generation.next? with
    | some next =>
      simp only [hnext] at hstep
      cases hstep
      exact .recycles (find_eq_ok_iff.mp hfind) hnext
    | none =>
      simp only [hnext] at hstep
      cases hstep
      exact .retires (find_eq_ok_iff.mp hfind) hnext

/-- A removal succeeds whenever the handle reaches a value. -/
theorem exists_remove (hfind : t.find h = .ok v) : ∃ t', t.remove h = .ok (v, t') := by
  unfold remove
  rw [hfind]
  cases h.generation.next? with
  | some next => exact ⟨_, rfl⟩
  | none => exact ⟨_, rfl⟩

lemma getElem?_set_self {slots : Array (Slot α)} {old : Slot α} (hslot : slots[i]? = some old)
    (slot : Slot α) : (slots.setIfInBounds i slot)[i]? = some slot :=
  Array.getElem?_setIfInBounds_self_of_lt (Array.getElem?_eq_some_iff.mp hslot).1

lemma countP_set {slots : Array (Slot α)} {old : Slot α} (hslot : slots[i]? = some old)
    (slot : Slot α) (p : Slot α → Bool) :
    (slots.setIfInBounds i slot).toList.countP p + (if p old then 1 else 0) =
      slots.toList.countP p + (if p slot then 1 else 0) := by
  rw [Array.toList_setIfInBounds]
  exact countP_set_add (by rw [Array.getElem?_toList]; exact hslot) slot

namespace Inserted

lemma slot_self (step : Inserted t v h t') :
    t'.slots[h.index.toNat]? = some ⟨h.generation, some v⟩ := by
  cases step with
  | fills _ vacant => exact getElem?_set_self vacant _
  | makes _ _ index_eq =>
    rw [index_eq]
    exact Array.getElem?_push_size

lemma slot_ne (step : Inserted t v h t') (hne : i ≠ h.index.toNat) :
    t'.slots[i]? = t.slots[i]? := by
  cases step with
  | fills => exact Array.getElem?_setIfInBounds_ne (Ne.symm hne)
  | makes _ _ index_eq =>
    rw [index_eq] at hne
    rw [Array.getElem?_push, if_neg hne]

/-- Nothing is stored where a value is inserted. -/
lemma find_ne_ok (step : Inserted t v h t') {k : Handle} (hindex : k.index = h.index) (w : α) :
    t.find k ≠ .ok w := by
  rw [ne_eq, find_eq_ok_iff, hindex]
  cases step with
  | fills _ vacant => simp [vacant]
  | makes _ _ index_eq => simp [index_eq]

lemma index_not_free (step : Inserted t v h t') (sound : t.Sound) : h.index ∉ t'.free := by
  cases step with
  | fills freed =>
    have hnodup := sound.nodup
    rw [freed] at hnodup
    exact (List.nodup_cons.mp hnodup).1
  | makes => exact List.not_mem_nil

lemma mem_free_iff (step : Inserted t v h t') {index : UInt32} (hne : index ≠ h.index) :
    index ∈ t'.free ↔ index ∈ t.free := by
  cases step with
  | fills freed => simp [freed, hne]
  | makes nothing_free => rw [nothing_free]

lemma free_sublist (step : Inserted t v h t') : t'.free.Sublist t.free := by
  cases step with
  | fills freed =>
    rw [freed]
    exact List.sublist_cons_self _ _
  | makes => exact List.nil_sublist _

/-- Inserting keeps a table sound. -/
theorem sound (step : Inserted t v h t') (sound : t.Sound) : t'.Sound where
  nodup := sound.nodup.sublist step.free_sublist
  vacant index hindex := by
    have hne : index ≠ h.index := fun heq => step.index_not_free sound (heq ▸ hindex)
    obtain ⟨generation, hslot⟩ := sound.vacant index ((step.mem_free_iff hne).mp hindex)
    refine ⟨generation, ?_⟩
    rw [step.slot_ne fun heq => hne (UInt32.toNat_inj.mp heq)]
    exact hslot
  retired index generation hslot := by
    by_cases heq : index = h.index
    · rw [heq, step.slot_self] at hslot
      cases hslot
    · rw [step.slot_ne fun hnat => heq (UInt32.toNat_inj.mp hnat)] at hslot
      exact (sound.retired index generation hslot).imp (step.mem_free_iff heq).mpr id
  occupied_eq := by
    have hold := sound.occupied_eq
    cases step with
    | fills _ vacant =>
      have hcount := countP_set vacant ⟨h.generation, some v⟩ fun slot => slot.value.isSome
      simp only [Option.isSome_none, Option.isSome_some, Bool.false_eq_true, if_false, if_true]
        at hcount
      dsimp only
      omega
    | makes =>
      rw [Array.toList_push, List.countP_append, List.countP_singleton, hold]
      rfl
  size_le := by
    have hold := sound.size_le
    cases step with
    | fills => rwa [Array.size_setIfInBounds]
    | makes _ room => rwa [Array.size_push]

end Inserted

namespace Removed

lemma live (step : Removed t h v t') :
    t.slots[h.index.toNat]? = some ⟨h.generation, some v⟩ := by
  cases step with
  | recycles live => exact live
  | retires live => exact live

lemma slot_self (step : Removed t h v t') :
    ∃ generation, t'.slots[h.index.toNat]? = some ⟨generation, none⟩ := by
  cases step with
  | recycles live => exact ⟨_, getElem?_set_self live _⟩
  | retires live => exact ⟨_, getElem?_set_self live _⟩

lemma slot_ne (step : Removed t h v t') (hne : i ≠ h.index.toNat) :
    t'.slots[i]? = t.slots[i]? := by
  cases step with
  | recycles => exact Array.getElem?_setIfInBounds_ne (Ne.symm hne)
  | retires => exact Array.getElem?_setIfInBounds_ne (Ne.symm hne)

lemma index_not_free (step : Removed t h v t') (sound : t.Sound) : h.index ∉ t.free := by
  intro hmem
  obtain ⟨generation, hslot⟩ := sound.vacant h.index hmem
  rw [step.live] at hslot
  cases hslot

lemma mem_free_iff (step : Removed t h v t') {index : UInt32} (hne : index ≠ h.index) :
    index ∈ t'.free ↔ index ∈ t.free := by
  cases step with
  | recycles => simp [hne]
  | retires => exact Iff.rfl

lemma occupied_eq (step : Removed t h v t') : t'.occupied = t.occupied - 1 := by
  cases step with
  | recycles => rfl
  | retires => rfl

lemma occupied_pos (step : Removed t h v t') (sound : t.Sound) : 0 < t.occupied := by
  rw [sound.occupied_eq, List.countP_pos_iff]
  have hslot : t.slots.toList[h.index.toNat]? = some ⟨h.generation, some v⟩ := by
    rw [Array.getElem?_toList]
    exact step.live
  exact ⟨_, List.mem_of_getElem? hslot, rfl⟩

/-- Removing keeps a table sound. -/
theorem sound (step : Removed t h v t') (sound : t.Sound) : t'.Sound where
  nodup := by
    have hnot := step.index_not_free sound
    cases step with
    | recycles => exact List.nodup_cons.mpr ⟨hnot, sound.nodup⟩
    | retires => exact sound.nodup
  vacant index hindex := by
    by_cases heq : index = h.index
    · rw [heq]
      exact step.slot_self
    · obtain ⟨generation, hslot⟩ := sound.vacant index ((step.mem_free_iff heq).mp hindex)
      refine ⟨generation, ?_⟩
      rw [step.slot_ne fun hnat => heq (UInt32.toNat_inj.mp hnat)]
      exact hslot
  retired index generation hslot := by
    by_cases heq : index = h.index
    · subst heq
      cases step with
      | recycles => exact .inl List.mem_cons_self
      | retires live last =>
        rw [getElem?_set_self live] at hslot
        cases hslot
        exact .inr last
    · rw [step.slot_ne fun hnat => heq (UInt32.toNat_inj.mp hnat)] at hslot
      exact (sound.retired index generation hslot).imp (step.mem_free_iff heq).mpr id
  occupied_eq := by
    have hold := sound.occupied_eq
    have hpos := step.occupied_pos sound
    rw [step.occupied_eq]
    cases step with
    | @recycles next live =>
      have hcount := countP_set live ⟨next, none⟩ fun slot => slot.value.isSome
      simp only [Option.isSome_none, Option.isSome_some, Bool.false_eq_true, if_false, if_true]
        at hcount
      dsimp only
      omega
    | retires live =>
      have hcount := countP_set live ⟨h.generation, none⟩ fun slot => slot.value.isSome
      simp only [Option.isSome_none, Option.isSome_some, Bool.false_eq_true, if_false, if_true]
        at hcount
      dsimp only
      omega
  size_le := by
    have hold := sound.size_le
    cases step with
    | recycles => rwa [Array.size_setIfInBounds]
    | retires => rwa [Array.size_setIfInBounds]

end Removed

lemma exists_remove_iff :
    (∃ t', t.remove h = .ok (v, t')) ↔ t.find h = .ok v := by
  constructor
  · rintro ⟨t', hstep⟩
    exact find_eq_ok_iff.mpr (remove_cases hstep).live
  · exact exists_remove

lemma exists_removeRaw_iff {raw : UInt64} :
    (∃ t', t.removeRaw raw = .ok (v, t')) ↔ t.findRaw raw = .ok v := by
  unfold removeRaw findRaw
  cases Handle.ofRaw raw with
  | ok h => exact exists_remove_iff
  | error e => simp

lemma removeRaw_eq_ok_iff {raw : UInt64} :
    t.removeRaw raw = .ok (v, t') ↔ ∃ h : Handle, h.toRaw = raw ∧ t.remove h = .ok (v, t') := by
  unfold removeRaw
  cases hraw : Handle.ofRaw raw with
  | ok h =>
    have hh := Handle.toRaw_of_ofRaw hraw
    constructor
    · exact fun hremove => ⟨h, hh, hremove⟩
    · rintro ⟨k, hk, hremove⟩
      rwa [Handle.toRaw_inj.mp (hh.trans hk.symm)]
  | error e =>
    refine iff_of_false (by simp) ?_
    rintro ⟨k, rfl, -⟩
    rw [k.ofRaw_toRaw] at hraw
    cases hraw

lemma sound_empty : (empty : Table α).Sound where
  nodup := List.nodup_nil
  vacant _ hindex := by cases hindex
  retired _ _ hslot := by simp [empty] at hslot
  occupied_eq := rfl
  size_le := Nat.zero_le _

end Strand.Table
