import Mathlib.Tactic.Lemma
import Strand.Handle.Basic

/-! A handle and its number. The number determines the handle, every number with a non-zero high
half is the number of a handle, and the generations of a slot go up one by one until the last. -/
namespace Strand

namespace Generation
variable {g k : Generation}

lemma toNat_pos (g : Generation) : 0 < g.val.toNat := by
  apply Nat.pos_of_ne_zero
  intro h
  exact g.ne_zero (UInt32.toNat_inj.mp h)

lemma toNat_lt (g : Generation) : g.val.toNat < 4294967296 := g.val.toNat_lt

lemma eq_of_toNat_eq (h : g.val.toNat = k.val.toNat) : g = k := ext (UInt32.toNat_inj.mp h)

lemma toNat_first : first.val.toNat = 1 := rfl

/-- The first generation comes before all others. -/
lemma toNat_first_lt (h : g ≠ first) : first.val.toNat < g.val.toNat := by
  have hpos := g.toNat_pos
  have hne : g.val.toNat ≠ first.val.toNat := fun heq => h (eq_of_toNat_eq heq)
  rw [toNat_first] at hne ⊢
  omega

lemma val_add_one_eq_zero_iff : g.val + 1 = 0 ↔ g.val.toNat = 4294967295 := by
  have hlt := g.toNat_lt
  rw [← UInt32.toNat_inj, UInt32.toNat_add, UInt32.toNat_one, UInt32.toNat_zero]
  omega

lemma next?_eq_none_iff : g.next? = none ↔ g.val.toNat = 4294967295 := by
  unfold next?
  split
  next h => exact iff_of_true rfl (val_add_one_eq_zero_iff.mp h)
  next h => exact iff_of_false (by simp) fun hlast => h (val_add_one_eq_zero_iff.mpr hlast)

lemma toNat_next (h : g.next? = some k) : k.val.toNat = g.val.toNat + 1 := by
  have hlt := g.toNat_lt
  unfold next? at h
  split at h
  · cases h
  next hnext =>
    have hlast : g.val.toNat ≠ 4294967295 := fun hlast =>
      hnext (val_add_one_eq_zero_iff.mpr hlast)
    rw [← Option.some.inj h, UInt32.toNat_add, UInt32.toNat_one]
    omega

end Generation

namespace Handle
variable {h k : Handle} {raw : UInt64}

lemma ext_toNat (hindex : h.index.toNat = k.index.toNat) (hgen : h.generation = k.generation) :
    h = k := by
  cases h
  cases k
  cases UInt32.toNat_inj.mp hindex
  cases hgen
  rfl

/-- The two halves of a handle's number do not overlap. -/
theorem toNat_toRaw (h : Handle) :
    h.toRaw.toNat = h.generation.val.toNat * 4294967296 + h.index.toNat := by
  have hindex := h.index.toNat_lt
  have hgen := h.generation.toNat_lt
  rw [toRaw, UInt64.toNat_add, UInt64.toNat_mul, UInt32.toNat_toUInt64, UInt32.toNat_toUInt64]
  have hbase : (4294967296 : UInt64).toNat = 4294967296 := rfl
  rw [hbase]
  omega

/-- The low half of a handle's number is its index. -/
lemma toNat_toRaw_mod (h : Handle) : h.toRaw.toNat % 4294967296 = h.index.toNat := by
  have hindex := h.index.toNat_lt
  rw [toNat_toRaw]
  omega

/-- The high half of a handle's number is not zero, and so neither is the number. -/
lemma le_toNat_toRaw (h : Handle) : 4294967296 ≤ h.toRaw.toNat := by
  have hpos := h.generation.toNat_pos
  rw [toNat_toRaw]
  omega

lemma toRaw_ne_zero (h : Handle) : h.toRaw ≠ 0 := by
  intro hzero
  have hle := h.le_toNat_toRaw
  rw [hzero, UInt64.toNat_zero] at hle
  omega

lemma high_toRaw (h : Handle) : (h.toRaw / 4294967296).toUInt32 = h.generation.val := by
  have hindex := h.index.toNat_lt
  have hgen := h.generation.toNat_lt
  have hbase : (4294967296 : UInt64).toNat = 4294967296 := rfl
  apply UInt32.toNat_inj.mp
  rw [UInt64.toNat_toUInt32, UInt64.toNat_div, toNat_toRaw, hbase]
  omega

lemma low_toRaw (h : Handle) : h.toRaw.toUInt32 = h.index := by
  have hindex := h.index.toNat_lt
  apply UInt32.toNat_inj.mp
  rw [UInt64.toNat_toUInt32, toNat_toRaw]
  omega

/-- Reading the number of a handle gives the handle back. -/
theorem ofRaw_toRaw (h : Handle) : ofRaw h.toRaw = .ok h := by
  have hhigh := h.high_toRaw
  rw [ofRaw, dif_neg (by rw [hhigh]; exact h.generation.ne_zero)]
  congr 1
  apply ext_toNat
  · exact congrArg UInt32.toNat h.low_toRaw
  · exact Generation.ext hhigh

/-- A number that is read as a handle is the number of that handle. -/
theorem toRaw_of_ofRaw (hraw : ofRaw raw = .ok h) : h.toRaw = raw := by
  unfold ofRaw at hraw
  split at hraw
  · cases hraw
  next hhigh =>
    cases hraw
    have hlt := raw.toNat_lt
    have hbase : (4294967296 : UInt64).toNat = 4294967296 := rfl
    apply UInt64.toNat_inj.mp
    rw [toNat_toRaw, UInt64.toNat_toUInt32, UInt64.toNat_toUInt32, UInt64.toNat_div, hbase]
    omega

/-- A number is no handle exactly if its high half is zero. -/
theorem ofRaw_eq_error_iff {e : HandleError} :
    ofRaw raw = .error e ↔ raw.toNat < 4294967296 ∧ e = .invalid raw := by
  have hlt := raw.toNat_lt
  have hhigh : (raw / 4294967296).toUInt32 = 0 ↔ raw.toNat < 4294967296 := by
    have hbase : (4294967296 : UInt64).toNat = 4294967296 := rfl
    rw [← UInt32.toNat_inj, UInt64.toNat_toUInt32, UInt64.toNat_div, hbase, UInt32.toNat_zero]
    omega
  rw [← hhigh, ofRaw]
  split
  next hzero => simp [hzero, eq_comm]
  next hzero => simp [hzero]

theorem toRaw_inj : h.toRaw = k.toRaw ↔ h = k := by
  constructor
  · intro hraw
    have hread := h.ofRaw_toRaw
    rw [hraw, k.ofRaw_toRaw] at hread
    exact (Except.ok.inj hread).symm
  · exact congrArg toRaw

end Handle
end Strand
