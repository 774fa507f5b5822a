import Mathlib.Data.List.Nodup
import Strand.Proofs.Handle.Slots

/-! A table as its users see it: a map from handles that are never used again to values. Each slot
remembers all the handles it was ever given out under, because it went through their
generations one by one; so a handle that is given out was not given out before, whichever slots were
recycled or retired in between. -/
namespace Strand
open Table

namespace Table
variable {α : Type} {t t' : Table α} {h k : Handle} {v w : α}

/-- The handles that a table has given out: those of the earlier generations of a slot, and of its
present one unless the slot is free and waits to be filled under it. -/
def Spent (t : Table α) (h : Handle) : Prop :=
  ∃ slot, t.slots[h.index.toNat]? = some slot ∧
    (h.generation.val.toNat < slot.generation.val.toNat ∨
      h.generation = slot.generation ∧ h.index ∉ t.free)

lemma spent_congr (hslot : t'.slots[k.index.toNat]? = t.slots[k.index.toNat]?)
    (hfree : k.index ∈ t'.free ↔ k.index ∈ t.free) : t'.Spent k ↔ t.Spent k := by
  unfold Spent
  rw [hslot, hfree]

lemma spent_iff_of_slot {generation : Generation} {value : Option α}
    (hslot : t.slots[k.index.toNat]? = some ⟨generation, value⟩) :
    t.Spent k ↔ k.generation.val.toNat < generation.val.toNat ∨
      k.generation = generation ∧ k.index ∉ t.free := by
  unfold Spent
  rw [hslot]
  constructor
  · rintro ⟨slot, hslot, hspent⟩
    cases hslot
    exact hspent
  · exact fun hspent => ⟨_, rfl, hspent⟩

namespace Inserted

/-- The handle of an insertion is a new one. -/
theorem not_spent (step : Inserted t v h t') : ¬t.Spent h := by
  cases step with
  | fills freed vacant =>
    rw [spent_iff_of_slot vacant, freed]
    rintro (hlt | ⟨-, hnot⟩)
    · exact Nat.lt_irrefl _ hlt
    · exact hnot List.mem_cons_self
  | makes _ _ index_eq =>
    rintro ⟨slot, hslot, -⟩
    simp [index_eq] at hslot

theorem spent_iff (step : Inserted t v h t') (sound : t.Sound) :
    t'.Spent k ↔ t.Spent k ∨ k = h := by
  by_cases hindex : k.index = h.index
  · have hslot : t'.slots[k.index.toNat]? = some ⟨h.generation, some v⟩ := by
      rw [hindex]
      exact step.slot_self
    have hnot := step.index_not_free sound
    rw [spent_iff_of_slot hslot, hindex]
    have hsame : k = h ↔ k.generation = h.generation :=
      ⟨congrArg Handle.generation, Handle.ext_toNat (congrArg UInt32.toNat hindex)⟩
    cases step with
    | fills freed vacant =>
      rw [spent_iff_of_slot (by rw [hindex]; exact vacant), hsame]
      simp [freed, hindex, hnot]
    | makes _ _ index_eq first =>
      have hnone : ¬t.Spent k := by
        rintro ⟨slot, hslot, -⟩
        simp [hindex, index_eq] at hslot
      have hpos := k.generation.toNat_pos
      have hone := Generation.toNat_first
      rw [hsame, first]
      simp only [hnone, false_or, List.not_mem_nil, not_false_eq_true, and_true]
      exact ⟨fun hspent => hspent.resolve_left (by omega), .inr⟩
  · have hne : k ≠ h := fun heq => hindex (congrArg Handle.index heq)
    rw [spent_congr (step.slot_ne fun hnat => hindex (UInt32.toNat_inj.mp hnat))
      (step.mem_free_iff hindex)]
    simp [hne]

theorem find_iff (step : Inserted t v h t') :
    t'.find k = .ok w ↔ t.find k = .ok w ∨ k = h ∧ w = v := by
  by_cases hindex : k.index = h.index
  · have hold := step.find_ne_ok hindex w
    rw [find_eq_ok_iff, hindex, step.slot_self]
    simp only [hold, false_or, Option.some.injEq, Slot.mk.injEq]
    constructor
    · rintro ⟨hgen, rfl⟩
      exact ⟨Handle.ext_toNat (congrArg UInt32.toNat hindex) hgen.symm, rfl⟩
    · rintro ⟨rfl, rfl⟩
      exact ⟨rfl, rfl⟩
  · have hne : k ≠ h := fun heq => hindex (congrArg Handle.index heq)
    rw [find_eq_ok_iff, step.slot_ne fun hnat => hindex (UInt32.toNat_inj.mp hnat),
      ← find_eq_ok_iff]
    simp [hne]

lemma findRaw_iff (step : Inserted t v h t') {raw : UInt64} :
    t'.findRaw raw = .ok w ↔ t.findRaw raw = .ok w ∨ raw = h.toRaw ∧ w = v := by
  unfold findRaw
  cases hraw : Handle.ofRaw raw with
  | ok k =>
    rw [← Handle.toRaw_of_ofRaw hraw, Handle.toRaw_inj]
    exact step.find_iff
  | error e =>
    refine iff_of_false (by simp) ?_
    rintro (herror | ⟨rfl, -⟩)
    · cases herror
    · rw [h.ofRaw_toRaw] at hraw
      cases hraw

end Inserted

namespace Removed

/-- A removal neither gives a handle out nor makes one that was given out new again. -/
theorem spent_iff (step : Removed t h v t') (sound : t.Sound) : t'.Spent k ↔ t.Spent k := by
  by_cases hindex : k.index = h.index
  · have hold : t.slots[k.index.toNat]? = some ⟨h.generation, some v⟩ := by
      rw [hindex]
      exact step.live
    have hnot := step.index_not_free sound
    rw [spent_iff_of_slot hold, hindex]
    cases step with
    | recycles live going_on =>
      have hnext := Generation.toNat_next going_on
      rw [spent_iff_of_slot (by rw [hindex]; exact getElem?_set_self live _), hindex]
      simp only [List.mem_cons_self, not_true_eq_false, and_false, or_false, hnot,
        not_false_eq_true, and_true]
      rw [hnext, Nat.lt_succ_iff_lt_or_eq]
      exact or_congr_right ⟨Generation.eq_of_toNat_eq, fun heq => by rw [heq]⟩
    | retires live =>
      rw [spent_iff_of_slot (by rw [hindex]; exact getElem?_set_self live _), hindex]
  · exact spent_congr (step.slot_ne fun hnat => hindex (UInt32.toNat_inj.mp hnat))
      (step.mem_free_iff hindex)

theorem find_iff (step : Removed t h v t') : t'.find k = .ok w ↔ t.find k = .ok w ∧ k ≠ h := by
  by_cases hindex : k.index = h.index
  · obtain ⟨generation, hslot⟩ := step.slot_self
    rw [find_eq_ok_iff, find_eq_ok_iff, hindex, hslot, step.live]
    constructor
    · intro heq
      cases heq
    · rintro ⟨heq, hne⟩
      rw [Option.some.injEq, Slot.mk.injEq] at heq
      exact absurd (Handle.ext_toNat (congrArg UInt32.toNat hindex) heq.1.symm) hne
  · have hne : k ≠ h := fun heq => hindex (congrArg Handle.index heq)
    rw [find_eq_ok_iff, step.slot_ne fun hnat => hindex (UInt32.toNat_inj.mp hnat),
      ← find_eq_ok_iff]
    simp [hne]

lemma findRaw_iff (step : Removed t h v t') {raw : UInt64} :
    t'.findRaw raw = .ok w ↔ t.findRaw raw = .ok w ∧ raw ≠ h.toRaw := by
  unfold findRaw
  cases hraw : Handle.ofRaw raw with
  | ok k =>
    rw [← Handle.toRaw_of_ofRaw hraw, ne_eq, Handle.toRaw_inj]
    exact step.find_iff
  | error e => simp

end Removed

/-- What was given out and what was taken back again account for all that a table holds. -/
structure Tracks (t : Table α) (issued : List (UInt64 × α)) (removed : List UInt64) : Prop where
  sound : t.Sound
  handle : ∀ raw ∈ issued.map Prod.fst, ∃ h : Handle, h.toRaw = raw
  spent : ∀ h : Handle, h.toRaw ∈ issued.map Prod.fst ↔ t.Spent h
  nodup : (issued.map Prod.fst).Nodup
  live : ∀ h v, t.find h = .ok v ↔ (h.toRaw, v) ∈ issued ∧ h.toRaw ∉ removed
  removed_nodup : removed.Nodup
  removed_subset : removed ⊆ issued.map Prod.fst
  size_eq : t.size + removed.length = issued.length

namespace Tracks
variable {issued : List (UInt64 × α)} {removed : List UInt64}

theorem empty : Tracks (Table.empty : Table α) [] [] where
  sound := sound_empty
  handle _ hraw := by cases hraw
  spent h := by simp [Spent, Table.empty]
  nodup := List.nodup_nil
  live h v := by simp [find_eq_ok_iff, Table.empty]
  removed_nodup := List.nodup_nil
  removed_subset := List.nil_subset _
  size_eq := rfl

lemma not_mem_of_inserted (tracks : Tracks t issued removed) (step : Inserted t v h t') :
    h.toRaw ∉ issued.map Prod.fst := fun hmem => step.not_spent ((tracks.spent h).mp hmem)

theorem insert (tracks : Tracks t issued removed) (step : Inserted t v h t') :
    Tracks t' (issued ++ [(h.toRaw, v)]) removed where
  sound := step.sound tracks.sound
  handle raw hraw := by
    rw [List.map_append, List.mem_append] at hraw
    rcases hraw with hraw | hraw
    · exact tracks.handle raw hraw
    · exact ⟨h, (List.mem_singleton.mp hraw).symm⟩
  spent k := by
    rw [step.spent_iff tracks.sound, ← tracks.spent k, List.map_append, List.mem_append]
    simp [Handle.toRaw_inj]
  nodup := by
    rw [List.map_append, List.map_singleton, ← List.concat_eq_append]
    exact tracks.nodup.concat (tracks.not_mem_of_inserted step)
  live k w := by
    have hfresh : h.toRaw ∉ removed := fun hmem =>
      tracks.not_mem_of_inserted step (tracks.removed_subset hmem)
    rw [step.find_iff, tracks.live k w, List.mem_append, List.mem_singleton, Prod.mk.injEq,
      Handle.toRaw_inj, or_and_right]
    refine or_congr_right ⟨?_, And.left⟩
    rintro ⟨rfl, rfl⟩
    exact ⟨⟨rfl, rfl⟩, hfresh⟩
  removed_nodup := tracks.removed_nodup
  removed_subset raw hraw := by
    rw [List.map_append, List.mem_append]
    exact .inl (tracks.removed_subset hraw)
  size_eq := by
    have hold := tracks.size_eq
    have hsize : t'.size = t.size + 1 := by cases step <;> rfl
    rw [hsize, List.length_append, List.length_singleton]
    omega

theorem remove (tracks : Tracks t issued removed) (step : Removed t h v t') :
    Tracks t' issued (removed ++ [h.toRaw]) where
  sound := step.sound tracks.sound
  handle := tracks.handle
  spent k := by rw [step.spent_iff tracks.sound, tracks.spent k]
  nodup := tracks.nodup
  live k w := by
    rw [step.find_iff, tracks.live k w, List.mem_append, List.mem_singleton, Handle.toRaw_inj,
      not_or, and_assoc]
  removed_nodup := by
    have hlive := (tracks.live h v).mp (find_eq_ok_iff.mpr step.live)
    rw [← List.concat_eq_append]
    exact tracks.removed_nodup.concat hlive.2
  removed_subset := by
    have hlive := (tracks.live h v).mp (find_eq_ok_iff.mpr step.live)
    apply List.append_subset.mpr ⟨tracks.removed_subset, ?_⟩
    rw [List.cons_subset]
    exact ⟨List.mem_map_of_mem hlive.1, List.nil_subset _⟩
  size_eq := by
    have hold := tracks.size_eq
    have hpos := step.occupied_pos tracks.sound
    rw [size] at hold
    rw [size, step.occupied_eq, List.length_append, List.length_singleton]
    omega

/-- A number reaches a value exactly if it was given out for this value and not taken back. -/
theorem findRaw_iff (tracks : Tracks t issued removed) (raw : UInt64) (v : α) :
    t.findRaw raw = .ok v ↔ (raw, v) ∈ issued ∧ raw ∉ removed := by
  unfold findRaw
  cases hraw : Handle.ofRaw raw with
  | ok h =>
    rw [← Handle.toRaw_of_ofRaw hraw]
    exact tracks.live h v
  | error e =>
    refine iff_of_false (by simp) ?_
    rintro ⟨hmem, -⟩
    obtain ⟨h, hh⟩ := tracks.handle raw (List.mem_map_of_mem hmem)
    rw [← hh, h.ofRaw_toRaw] at hraw
    cases hraw

end Tracks
end Table
end Strand
