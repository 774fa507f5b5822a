import Mathlib.Order.Bounds.Basic
import Strand.Proofs.Handle.InPlace

/-! How many slots a table has. A slot is taken while it holds a value, and for good once its value
was removed at the last generation. All other slots are free, and a free slot is filled before a new
one is made; so a table has as many slots as were ever taken at one time. -/
namespace Strand.Table
open Ledger
variable {α : Type} {t t' : Table α} {h : Handle} {v : α} {log : List (Op α × Outcome α)}
  {raw : UInt64}

namespace Ledger

/-- The numbers that were given out and not taken back since. -/
def stored (log : List (Op α × Outcome α)) : List UInt64 :=
  ((issued log).map Prod.fst).filter fun raw => raw ∉ removed log

/-- The numbers that were taken back at the last generation, which retired their slots. -/
def retired (log : List (Op α × Outcome α)) : List UInt64 :=
  (removed log).filter fun raw => raw.toNat / 4294967296 = 4294967295

/-- The slots that are taken: each holds a value or is retired. -/
def taken (log : List (Op α × Outcome α)) : List Nat :=
  (stored log ++ retired log).map fun raw => raw.toNat % 4294967296

end Ledger

lemma toNat_injective : Function.Injective UInt32.toNat := fun _ _ => UInt32.toNat_inj.mp

lemma mem_stored_append_retired : raw ∈ stored log ++ retired log ↔
    (raw ∈ (issued log).map Prod.fst ∧ raw ∉ removed log) ∨
      raw ∈ removed log ∧ raw.toNat / 4294967296 = 4294967295 := by
  simp only [stored, retired, List.mem_append, List.mem_filter, decide_eq_true_eq]

namespace Recorded

/-- A number that keeps its slot taken has the generation that its slot has now. -/
lemma slot_of_mem (recorded : Recorded log t) (hraw : raw ∈ stored log ++ retired log) :
    ∃ h : Handle, h.toRaw = raw ∧ h.index ∉ t.free ∧
      ∃ value, t.slots[h.index.toNat]? = some ⟨h.generation, value⟩ := by
  have tracks := recorded.tracks
  rcases mem_stored_append_retired.mp hraw with ⟨hissued, hkept⟩ | ⟨hremoved, hlast⟩
  · obtain ⟨h, rfl⟩ := tracks.handle raw hissued
    obtain ⟨⟨_, v⟩, hentry, rfl⟩ := List.mem_map.mp hissued
    have hslot := find_eq_ok_iff.mp ((tracks.live h v).mpr ⟨hentry, hkept⟩)
    refine ⟨h, rfl, fun hfree => ?_, some v, hslot⟩
    obtain ⟨generation, hvacant⟩ := tracks.sound.vacant h.index hfree
    rw [hslot] at hvacant
    cases hvacant
  · have hissued := tracks.removed_subset hremoved
    obtain ⟨h, rfl⟩ := tracks.handle raw hissued
    obtain ⟨⟨generation, value⟩, hslot, hlt | ⟨hgen, hnot⟩⟩ := (tracks.spent h).mp hissued
    · have hindex := h.index.toNat_lt
      have hbound := generation.toNat_lt
      rw [h.toNat_toRaw] at hlast
      dsimp only at hlt
      omega
    · exact ⟨h, rfl, hnot, value, hgen ▸ hslot⟩

lemma nodup_stored_append_retired (recorded : Recorded log t) :
    (stored log ++ retired log).Nodup := by
  have tracks := recorded.tracks
  refine List.nodup_append'.mpr
    ⟨tracks.nodup.filter _, tracks.removed_nodup.filter _, fun raw hstored hretired => ?_⟩
  simp only [stored, retired, List.mem_filter, decide_eq_true_eq] at hstored hretired
  exact hstored.2 hretired.1

/-- No slot is taken twice. -/
lemma nodup_taken (recorded : Recorded log t) : (taken log).Nodup := by
  refine recorded.nodup_stored_append_retired.map_on fun raw hraw raw' hraw' hindex => ?_
  obtain ⟨h, rfl, -, value, hslot⟩ := recorded.slot_of_mem hraw
  obtain ⟨k, rfl, -, value', hslot'⟩ := recorded.slot_of_mem hraw'
  rw [h.toNat_toRaw_mod, k.toNat_toRaw_mod] at hindex
  rw [hindex, hslot', Option.some.injEq, Slot.mk.injEq] at hslot
  exact congrArg Handle.toRaw (Handle.ext_toNat hindex hslot.1.symm)

/-- The taken slots are those that exist and are not free. -/
theorem mem_taken_iff (recorded : Recorded log t) (index : UInt32) :
    index.toNat ∈ taken log ↔ index.toNat < t.slots.size ∧ index ∉ t.free := by
  have tracks := recorded.tracks
  constructor
  · intro hmem
    obtain ⟨raw, hraw, hindex⟩ := List.mem_map.mp hmem
    obtain ⟨h, rfl, hfree, value, hslot⟩ := recorded.slot_of_mem hraw
    obtain rfl : h.index = index := UInt32.toNat_inj.mp (h.toNat_toRaw_mod.symm.trans hindex)
    exact ⟨(Array.getElem?_eq_some_iff.mp hslot).1, hfree⟩
  · rintro ⟨hlt, hfree⟩
    obtain ⟨⟨generation, value⟩, hslot⟩ : ∃ slot, t.slots[index.toNat]? = some slot :=
      ⟨_, Array.getElem?_eq_getElem hlt⟩
    let h : Handle := ⟨index, generation⟩
    have hissued : h.toRaw ∈ (issued log).map Prod.fst :=
      (tracks.spent h).mpr ⟨_, hslot, .inr ⟨rfl, hfree⟩⟩
    refine List.mem_map.mpr ⟨h.toRaw, mem_stored_append_retired.mpr ?_, h.toNat_toRaw_mod⟩
    by_cases hremoved : h.toRaw ∈ removed log
    · have hvacant : value = none := by
        cases value with
        | none => rfl
        | some v => exact absurd hremoved ((tracks.live h v).mp (find_eq_ok_iff.mpr hslot)).2
      have hlast : generation.next? = none := by
        rw [hvacant] at hslot
        exact (tracks.sound.retired index generation hslot).resolve_left hfree
      have hgen : h.generation.val.toNat = 4294967295 := Generation.next?_eq_none_iff.mp hlast
      have hindex := h.index.toNat_lt
      refine .inr ⟨hremoved, ?_⟩
      rw [h.toNat_toRaw, hgen]
      omega
    · exact .inl ⟨hissued, hremoved⟩

lemma lt_of_mem_taken (recorded : Recorded log t) {i : Nat} (htaken : i ∈ taken log) :
    i < t.slots.size := by
  obtain ⟨raw, hraw, rfl⟩ := List.mem_map.mp htaken
  obtain ⟨h, rfl, -, value, hslot⟩ := recorded.slot_of_mem hraw
  rw [h.toNat_toRaw_mod]
  exact (Array.getElem?_eq_some_iff.mp hslot).1

/-- Every slot is either taken or free. -/
lemma lt_size_iff_taken_or_free (recorded : Recorded log t) (i : Nat) :
    i < t.slots.size ↔ i ∈ taken log ∨ i ∈ t.free.map UInt32.toNat := by
  have sound := recorded.tracks.sound
  constructor
  · intro hlt
    have hindex : (UInt32.ofNat i).toNat = i :=
      UInt32.toNat_ofNat_of_lt' (Nat.lt_of_lt_of_le hlt sound.size_le)
    rw [← hindex, recorded.mem_taken_iff, List.mem_map_of_injective toNat_injective, hindex]
    by_cases hfree : UInt32.ofNat i ∈ t.free
    · exact .inr hfree
    · exact .inl ⟨hlt, hfree⟩
  · rintro (htaken | hmem)
    · exact recorded.lt_of_mem_taken htaken
    · obtain ⟨index, hindex, rfl⟩ := List.mem_map.mp hmem
      obtain ⟨generation, hslot⟩ := sound.vacant index hindex
      exact (Array.getElem?_eq_some_iff.mp hslot).1

theorem slots_size_eq (recorded : Recorded log t) :
    t.slots.size = (stored log).length + (retired log).length + t.free.length := by
  have hapart : (taken log).Disjoint (t.free.map UInt32.toNat) := by
    intro i htaken hmem
    obtain ⟨index, hindex, rfl⟩ := List.mem_map.mp hmem
    exact ((recorded.mem_taken_iff index).mp htaken).2 hindex
  have hfree : (t.free.map UInt32.toNat).Nodup :=
    recorded.tracks.sound.nodup.map toNat_injective
  have hparts : (List.range t.slots.size).Perm (taken log ++ t.free.map UInt32.toNat) := by
    refine (List.perm_ext_iff_of_nodup List.nodup_range ?_).mpr fun i => ?_
    · exact List.nodup_append'.mpr ⟨recorded.nodup_taken, hfree, hapart⟩
    · rw [List.mem_range, List.mem_append]
      exact recorded.lt_size_iff_taken_or_free i
  have hlength := hparts.length_eq
  simp only [taken, List.length_append, List.length_map, List.length_range] at hlength
  omega

/-- A value that is stored keeps one slot, so their number is that of the values. -/
lemma length_stored (recorded : Recorded log t) : t.size = (stored log).length := by
  have tracks := recorded.tracks
  have hperm : ((issued log).map Prod.fst).Perm (removed log ++ stored log) := by
    refine (List.perm_ext_iff_of_nodup tracks.nodup ?_).mpr fun raw => ?_
    · refine List.nodup_append'.mpr ⟨tracks.removed_nodup, tracks.nodup.filter _, ?_⟩
      intro raw hremoved hstored
      simp only [stored, List.mem_filter, decide_eq_true_eq] at hstored
      exact hstored.2 hremoved
    · simp only [stored, List.mem_append, List.mem_filter, decide_eq_true_eq]
      have hsubset := @tracks.removed_subset raw
      tauto
  have hlength := hperm.length_eq
  have hsize := tracks.size_eq
  rw [List.length_map, List.length_append] at hlength
  omega

end Recorded

/-- A call adds a slot at most, and only if no slot is free. -/
lemma perform_size_cases (sound : t.Sound) (op : Op α) :
    (t.perform op).2.slots.size = t.slots.size ∨
      (t.perform op).2.slots.size = t.slots.size + 1 ∧ (t.perform op).2.free = [] := by
  rcases perform_cases sound op with ⟨h, v, -, -, step⟩ | ⟨h, v, -, -, step⟩ | ⟨-, -, hsame⟩
  · generalize (t.perform op).2 = t' at step
    cases step with
    | fills => exact .inl Array.size_setIfInBounds
    | makes => exact .inr ⟨Array.size_push _, rfl⟩
  · generalize (t.perform op).2 = t' at step
    cases step with
    | recycles => exact .inl Array.size_setIfInBounds
    | retires => exact .inl Array.size_setIfInBounds
  · exact .inl (congrArg (fun t => t.slots.size) hsame)

/-- How many slots were taken at one time or another of a run. -/
def loads (log : List (Op α × Outcome α)) : Set Nat :=
  {n | ∃ before after, log = before ++ after ∧ n = (stored before).length + (retired before).length}

lemma mem_loads_concat {entry : Op α × Outcome α} {n : Nat} : n ∈ loads (log ++ [entry]) ↔
    n ∈ loads log ∨
      n = (stored (log ++ [entry])).length + (retired (log ++ [entry])).length := by
  constructor
  · rintro ⟨before, after, hlog, rfl⟩
    rcases List.eq_nil_or_concat' after with rfl | ⟨rest, last, rfl⟩
    · rw [List.append_nil] at hlog
      exact .inr (by rw [hlog])
    · rw [← List.append_assoc] at hlog
      exact .inl ⟨before, rest, (List.append_inj' hlog rfl).1, rfl⟩
  · rintro (⟨before, after, rfl, rfl⟩ | rfl)
    · exact ⟨before, after ++ [entry], List.append_assoc _ _ _, rfl⟩
    · exact ⟨log ++ [entry], [], (List.append_nil _).symm, rfl⟩

/-- A table that has grown only when it had to. -/
structure Grown (log : List (Op α × Outcome α)) (t : Table α) : Prop where
  recorded : Recorded log t
  greatest : IsGreatest (loads log) t.slots.size

namespace Grown

theorem empty : Grown [] (Table.empty : Table α) where
  recorded := .empty
  greatest := by
    refine ⟨⟨[], [], rfl, rfl⟩, ?_⟩
    rintro n ⟨before, after, hlog, rfl⟩
    obtain ⟨rfl, -⟩ := List.append_eq_nil_iff.mp hlog.symm
    exact Nat.le_refl _

/-- A new slot is made when all others are taken, and then all are taken with it. -/
theorem perform (grown : Grown log t) (op : Op α) :
    Grown (log ++ [(op, (t.perform op).1)]) (t.perform op).2 := by
  have recorded := grown.recorded.perform op
  have hparts := recorded.slots_size_eq
  refine ⟨recorded, ?_, ?_⟩
  · rw [mem_loads_concat]
    rcases perform_size_cases grown.recorded.tracks.sound op with hsame | ⟨-, hfree⟩
    · rw [hsame]
      exact .inl grown.greatest.1
    · rw [hfree, List.length_nil, Nat.add_zero] at hparts
      exact .inr hparts
  · intro n hn
    rcases mem_loads_concat.mp hn with hn | rfl
    · refine Nat.le_trans (grown.greatest.2 hn) ?_
      rcases perform_size_cases grown.recorded.tracks.sound op with hsame | ⟨hmore, -⟩
      · exact Nat.le_of_eq hsame.symm
      · omega
    · omega

theorem performAll (grown : Grown log t) (ops : List (Op α)) :
    Grown (log ++ (t.performAll ops).1) (t.performAll ops).2 := by
  induction ops generalizing t log with
  | nil =>
    rw [Table.performAll, List.append_nil]
    exact grown
  | cons op ops ih =>
    have hrest := ih (grown.perform op)
    rw [List.append_assoc] at hrest
    exact hrest

end Grown

/-- An insertion finds no slot exactly if no slot is free and none can be made. -/
lemma insert_eq_error_iff (sound : t.Sound) {e : HandleError} :
    t.insert v = .error e ↔ e = .exhausted ∧ t.free = [] ∧ t.slots.size = maxSlots := by
  have hbound := sound.size_le
  unfold insert
  cases hfree : t.free with
  | cons index free =>
    obtain ⟨generation, hslot⟩ := sound.vacant index (hfree ▸ List.mem_cons_self)
    simp [hslot]
  | nil =>
    by_cases hroom : t.slots.size < maxSlots
    · simp [hroom, Nat.ne_of_lt hroom]
    · simp [eq_comm, Nat.le_antisymm hbound (Nat.not_lt.mp hroom)]

namespace Recorded

/-- As long as a slot is free, an insertion fills one that is. -/
lemma exists_insert_of_free (recorded : Recorded log t) {i : Nat} (hi : i < t.slots.size)
    (hfree : i ∉ taken log) (v : α) : ∃ h t', t.insert v = .ok (h, t') ∧
      h.index.toNat < t.slots.size ∧ h.index.toNat ∉ taken log ∧
      t'.slots.size = t.slots.size := by
  have sound := recorded.tracks.sound
  have hmem := ((recorded.lt_size_iff_taken_or_free i).mp hi).resolve_left hfree
  have hne : t.free ≠ [] := fun hnil => by simp [hnil] at hmem
  cases hstep : t.insert v with
  | error e => exact absurd ((insert_eq_error_iff sound).mp hstep).2.1 hne
  | ok result =>
    refine ⟨result.1, result.2, rfl, ?_⟩
    have step : Inserted t v result.1 result.2 := insert_cases sound hstep
    generalize result.2 = t' at step
    cases step with
    | fills freed vacant =>
      have hlt := (Array.getElem?_eq_some_iff.mp vacant).1
      refine ⟨hlt, fun htaken => ?_, Array.size_setIfInBounds⟩
      have hnot := ((recorded.mem_taken_iff _).mp htaken).2
      rw [freed] at hnot
      exact hnot List.mem_cons_self
    | makes nothing_free => exact absurd nothing_free hne

lemma insert_eq_error_iff (recorded : Recorded log t) (v : α) (e : HandleError) :
    t.insert v = .error e ↔ e = .exhausted ∧ t.slots.size = 4294967296 ∧
      ∀ index : UInt32, index.toNat ∈ taken log := by
  rw [Table.insert_eq_error_iff recorded.tracks.sound]
  refine and_congr_right fun _ => ?_
  constructor
  · rintro ⟨hfree, hsize⟩
    refine ⟨hsize, fun index => (recorded.mem_taken_iff index).mpr ?_⟩
    rw [hfree, hsize]
    exact ⟨index.toNat_lt, List.not_mem_nil⟩
  · rintro ⟨hsize, htaken⟩
    exact ⟨List.eq_nil_iff_forall_not_mem.mpr fun index =>
      ((recorded.mem_taken_iff index).mp (htaken index)).2, hsize⟩

end Recorded

/-- How a table with this log has come to its slots. -/
structure Reuses (log : List (Op α × Outcome α)) (t : Table α) : Prop where
  size_eq : t.size = (stored log).length
  /-- No slot is taken twice, so that counting numbers is counting slots. -/
  nodup : (taken log).Nodup
  /-- There are as many slots as were ever taken at one time. -/
  greatest : IsGreatest (loads log) t.slots.size
  /-- A slot that is not taken is filled before another one is made. -/
  fills_free : ∀ i < t.slots.size, i ∉ taken log → ∀ v, ∃ h t', t.insert v = .ok (h, t') ∧
    h.index.toNat < t.slots.size ∧ h.index.toNat ∉ taken log ∧ t'.slots.size = t.slots.size
  exhausted_iff : ∀ v e, t.insert v = .error e ↔ e = .exhausted ∧
    t.slots.size = 4294967296 ∧ ∀ index : UInt32, index.toNat ∈ taken log
  unchanged : ∀ v, (t.enact (.insert v)).1 = .failed .exhausted → (t.enact (.insert v)).2 = t

/-- After any calls in any order, a table has no more slots than it once needed, and an insertion
fails only when every slot that there can be is taken. -/
theorem performAll_reuses (ops : List (Op α)) :
    Reuses ((empty : Table α).performAll ops).1 ((empty : Table α).performAll ops).2 := by
  have grown := Grown.empty.performAll (α := α) ops
  rw [List.nil_append] at grown
  have recorded := grown.recorded
  exact ⟨recorded.length_stored, recorded.nodup_taken, grown.greatest,
    fun i hi hfree v => recorded.exists_insert_of_free hi hfree v, recorded.insert_eq_error_iff,
    fun v => enact_of_failed recorded.tracks.sound⟩

end Strand.Table
