import Strand.Proofs.Handle.InPlace

/-! What a table says to a number that reaches nothing. A number with nothing in its high half, or
whose low half names no slot that was ever made, is invalid; every other one is stale, whether it
was taken back, is still to be given out, or never will be. -/
namespace Strand.Table
open Ledger
variable {α β : Type} {t t' : Table α} {h : Handle} {raw : UInt64} {e : HandleError} {v : α}
  {log : List (Op α × Outcome α)}

/-- What is wrong with a number that reaches nothing in a table of so many slots. -/
def refusal (slots : Nat) (raw : UInt64) : HandleError :=
  if raw.toNat / 4294967296 = 0 ∨ slots ≤ raw.toNat % 4294967296 then .invalid raw else .stale raw

lemma refusal_toRaw (slots : Nat) (h : Handle) : refusal slots h.toRaw =
    if slots ≤ h.index.toNat then .invalid h.toRaw else .stale h.toRaw := by
  have hindex := h.index.toNat_lt
  have hpos := h.generation.toNat_pos
  have hhigh : ¬h.toRaw.toNat / 4294967296 = 0 := by
    rw [h.toNat_toRaw]
    omega
  simp only [refusal, hhigh, h.toNat_toRaw_mod, false_or]

lemma find_cases (t : Table α) (h : Handle) :
    (∃ v, t.find h = .ok v) ∨ t.find h = .error (refusal t.slots.size h.toRaw) := by
  rw [refusal_toRaw]
  unfold find
  cases hslot : t.slots[h.index.toNat]? with
  | none => exact .inr (by rw [if_pos (Array.getElem?_eq_none_iff.mp hslot)])
  | some slot =>
    have hlt := (Array.getElem?_eq_some_iff.mp hslot).1
    rw [if_neg (Nat.not_le.mpr hlt)]
    obtain ⟨generation, value⟩ := slot
    cases value with
    | none => exact .inr rfl
    | some value =>
      by_cases hgeneration : generation = h.generation
      · exact .inl ⟨value, if_pos hgeneration⟩
      · exact .inr (if_neg hgeneration)

lemma findRaw_cases (t : Table α) (raw : UInt64) :
    (∃ v, t.findRaw raw = .ok v) ∨ t.findRaw raw = .error (refusal t.slots.size raw) := by
  unfold findRaw
  cases hraw : Handle.ofRaw raw with
  | error e =>
    obtain ⟨hlow, rfl⟩ := Handle.ofRaw_eq_error_iff.mp hraw
    have hhigh : raw.toNat / 4294967296 = 0 := Nat.div_eq_of_lt hlow
    exact .inr (by rw [refusal, if_pos (.inl hhigh)])
  | ok h =>
    rw [← Handle.toRaw_of_ofRaw hraw]
    exact t.find_cases h

theorem findRaw_eq_error_iff :
    t.findRaw raw = .error e ↔ (∀ v, t.findRaw raw ≠ .ok v) ∧ e = refusal t.slots.size raw := by
  rcases t.findRaw_cases raw with ⟨v, hfind⟩ | hfind
  · simp [hfind]
  · simp [hfind, eq_comm]

lemma remove_eq_error_iff : t.remove h = .error e ↔ t.find h = .error e := by
  unfold remove
  cases t.find h with
  | error other => simp
  | ok value => cases h.generation.next? <;> simp

lemma removeRaw_eq_error_iff : t.removeRaw raw = .error e ↔ t.findRaw raw = .error e := by
  unfold removeRaw findRaw
  cases Handle.ofRaw raw with
  | error other => simp
  | ok h => exact remove_eq_error_iff

lemma inspect_eq_error_iff {f : α → β} : t.inspect h f = .error e ↔ t.find h = .error e := by
  unfold inspect
  cases t.find h <;> simp [Except.map]

/-- A call that names a number fails if the number reaches nothing. -/
lemma perform_eq_failed {op : Op α} (target : op.target? = some raw)
    (failed : t.findRaw raw = .error e) : (t.perform op).1 = .failed e := by
  cases op with
  | insert => cases target
  | remove h =>
    cases target
    rw [findRaw_toRaw, ← remove_eq_error_iff] at failed
    simp only [perform, failed]
  | removeRaw =>
    cases target
    simp only [perform, removeRaw_eq_error_iff.mpr failed]
  | inspect h =>
    cases target
    rw [findRaw_toRaw] at failed
    simp only [perform, inspect_eq_error_iff.mpr failed]
  | findRaw =>
    cases target
    simp only [perform, failed]

/-- Every slot that is free has left its first generation. -/
def Recycled (t : Table α) : Prop :=
  ∀ index ∈ t.free, ∀ slot, t.slots[index.toNat]? = some slot → slot.generation ≠ .first

lemma Inserted.recycled (step : Inserted t v h t') (sound : t.Sound) (recycled : t.Recycled) :
    t'.Recycled := by
  intro index hindex slot hslot
  have hne : index ≠ h.index := fun heq => step.index_not_free sound (heq ▸ hindex)
  rw [step.slot_ne fun hnat => hne (UInt32.toNat_inj.mp hnat)] at hslot
  exact recycled index ((step.mem_free_iff hne).mp hindex) slot hslot

lemma Removed.recycled (step : Removed t h v t') (sound : t.Sound) (recycled : t.Recycled) :
    t'.Recycled := by
  intro index hindex slot hslot
  by_cases heq : index = h.index
  · subst heq
    cases step with
    | recycles live going_on =>
      rw [getElem?_set_self live] at hslot
      cases hslot
      rintro rfl
      have hnext := Generation.toNat_next going_on
      have hpos := h.generation.toNat_pos
      rw [Generation.toNat_first] at hnext
      omega
    | retires live last => exact absurd hindex ((Removed.retires live last).index_not_free sound)
  · rw [step.slot_ne fun hnat => heq (UInt32.toNat_inj.mp hnat)] at hslot
    exact recycled index ((step.mem_free_iff heq).mp hindex) slot hslot

lemma perform_recycled (sound : t.Sound) (recycled : t.Recycled) (op : Op α) :
    (t.perform op).2.Sound ∧ (t.perform op).2.Recycled := by
  rcases perform_cases sound op with ⟨h, v, -, -, step⟩ | ⟨h, v, -, -, step⟩ | ⟨-, -, hsame⟩
  · exact ⟨step.sound sound, step.recycled sound recycled⟩
  · exact ⟨step.sound sound, step.recycled sound recycled⟩
  · rw [hsame]
    exact ⟨sound, recycled⟩

lemma performAll_recycled (sound : t.Sound) (recycled : t.Recycled) (ops : List (Op α)) :
    (t.performAll ops).2.Recycled := by
  induction ops generalizing t with
  | nil => exact recycled
  | cons op ops ih =>
    obtain ⟨hsound, hrecycled⟩ := perform_recycled sound recycled op
    exact ih hsound hrecycled

namespace Recorded

/-- A slot has been made exactly if some number with its index was given out. -/
lemma lt_size_iff (recorded : Recorded log t) (recycled : t.Recycled) (i : Nat) :
    i < t.slots.size ↔ ∃ entry ∈ issued log, entry.1.toNat % 4294967296 = i := by
  have tracks := recorded.tracks
  constructor
  · intro hi
    have hindex : (UInt32.ofNat i).toNat = i :=
      UInt32.toNat_ofNat_of_lt' (Nat.lt_of_lt_of_le hi tracks.sound.size_le)
    obtain ⟨slot, hslot⟩ : ∃ slot, t.slots[(UInt32.ofNat i).toNat]? = some slot := by
      rw [hindex]
      exact ⟨_, Array.getElem?_eq_getElem hi⟩
    obtain ⟨generation, hspent⟩ : ∃ generation, t.Spent ⟨UInt32.ofNat i, generation⟩ := by
      by_cases hfree : UInt32.ofNat i ∈ t.free
      · have hlt := Generation.toNat_first_lt (recycled _ hfree slot hslot)
        exact ⟨.first, slot, hslot, .inl hlt⟩
      · exact ⟨slot.generation, slot, hslot, .inr ⟨rfl, hfree⟩⟩
    obtain ⟨entry, hmem, hraw⟩ := List.mem_map.mp ((tracks.spent _).mpr hspent)
    exact ⟨entry, hmem, by rw [hraw, Handle.toNat_toRaw_mod, hindex]⟩
  · rintro ⟨entry, hmem, rfl⟩
    have hissued := List.mem_map_of_mem (f := Prod.fst) hmem
    obtain ⟨h, hh⟩ := tracks.handle _ hissued
    rw [← hh] at hissued ⊢
    obtain ⟨slot, hslot, -⟩ := (tracks.spent h).mp hissued
    rw [h.toNat_toRaw_mod]
    exact (Array.getElem?_eq_some_iff.mp hslot).1

lemma findRaw_eq_error_iff (recorded : Recorded log t) (raw : UInt64) (e : HandleError) :
    t.findRaw raw = .error e ↔ (∀ v, ¬Stored log raw v) ∧ e = refusal t.slots.size raw := by
  simp only [Table.findRaw_eq_error_iff, ne_eq, recorded.findRaw_iff]

/-- A number that was taken back is stale from then on. -/
lemma findRaw_removed (recorded : Recorded log t) (taken : raw ∈ removed log) :
    t.findRaw raw = .error (.stale raw) := by
  have tracks := recorded.tracks
  refine (recorded.findRaw_eq_error_iff raw _).mpr ⟨fun v stored => ?_, ?_⟩
  · exact ((recorded.stored_iff raw v).mp stored).2 taken
  · have hissued := tracks.removed_subset taken
    obtain ⟨h, rfl⟩ := tracks.handle raw hissued
    obtain ⟨slot, hslot, -⟩ := (tracks.spent h).mp hissued
    have hlt := (Array.getElem?_eq_some_iff.mp hslot).1
    rw [refusal_toRaw, if_neg (Nat.not_le.mpr hlt)]

end Recorded

/-- How a table with this log refuses numbers that reach nothing. -/
structure Refuses (log : List (Op α × Outcome α)) (t : Table α) : Prop where
  /-- The slots that were ever made are those that a number was given out for. -/
  made : ∀ i, i < t.slots.size ↔ ∃ entry ∈ issued log, entry.1.toNat % 4294967296 = i
  findRaw_iff : ∀ raw e, t.findRaw raw = .error e ↔
    (∀ v, ¬Stored log raw v) ∧ e = refusal t.slots.size raw
  removeRaw_iff : ∀ raw e, t.removeRaw raw = .error e ↔
    (∀ v, ¬Stored log raw v) ∧ e = refusal t.slots.size raw
  remove_iff : ∀ h e, t.remove h = .error e ↔
    (∀ v, ¬Stored log h.toRaw v) ∧ e = refusal t.slots.size h.toRaw
  inspect_iff : ∀ {β : Type} (h : Handle) (f : α → β) (e : HandleError), t.inspect h f = .error e ↔
    (∀ v, ¬Stored log h.toRaw v) ∧ e = refusal t.slots.size h.toRaw
  /-- Whatever is called for a number that was taken back, it is told that the number is stale. -/
  stale : ∀ op raw, op.target? = some raw → raw ∈ removed log →
    (t.perform op).1 = .failed (.stale raw)
  /-- The calls do what they do when they write in place, and then a failing one writes nothing. -/
  enacts : ∀ op, t.enact op = t.perform op
  unchanged : ∀ op e, (t.enact op).1 = .failed e → (t.enact op).2 = t
  /-- A look runs its function on the value that is stored. -/
  runs : ∀ {m : Type → Type} [Monad m] {β : Type} (h : Handle) (f : α → m β) (v : α),
    Stored log h.toRaw v → t.inspectM h f = Except.ok <$> f v
  /-- A look that fails does not run its function, whatever its effects would be. -/
  unseen : ∀ {m : Type → Type} [Monad m] {β : Type} (h : Handle) (f : α → m β),
    (∀ v, ¬Stored log h.toRaw v) →
      t.inspectM h f = pure (.error (refusal t.slots.size h.toRaw))

/-- After any calls in any order, a call through a number fails exactly if the number reaches
nothing; the error says why, and nothing else has happened. -/
theorem performAll_refuses (ops : List (Op α)) :
    Refuses ((empty : Table α).performAll ops).1 ((empty : Table α).performAll ops).2 := by
  have recorded := Recorded.empty.performAll (α := α) ops
  rw [List.nil_append] at recorded
  have recycled := performAll_recycled (α := α) sound_empty (fun _ hindex => by cases hindex) ops
  have sound := recorded.tracks.sound
  have hrefused := recorded.findRaw_eq_error_iff
  refine ⟨recorded.lt_size_iff recycled, hrefused, fun raw e => ?_, fun h e => ?_, fun h f e => ?_,
    fun op raw target taken => ?_, enact_eq_perform sound, fun op e => enact_of_failed sound,
    fun h f v stored => ?_, fun h f unstored => ?_⟩
  · rw [removeRaw_eq_error_iff, hrefused]
  · rw [remove_eq_error_iff, ← findRaw_toRaw, hrefused]
  · rw [inspect_eq_error_iff, ← findRaw_toRaw, hrefused]
  · exact perform_eq_failed target (recorded.findRaw_removed taken)
  · have hfind := (recorded.findRaw_iff h.toRaw v).mpr stored
    rw [findRaw_toRaw] at hfind
    rw [inspectM_eq, hfind]
  · have hfind := (hrefused h.toRaw _).mpr ⟨unstored, rfl⟩
    rw [findRaw_toRaw] at hfind
    rw [inspectM_eq, hfind]

end Strand.Table
