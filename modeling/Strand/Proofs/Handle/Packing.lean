import Mathlib.Logic.Function.Defs
import Strand.Proofs.Handle.Word

/-! The number of a handle, bit by bit: the generation is shifted into the high half, and the index
stands in the low half. The halves never run into each other, so writing and reading a number undo
each other, and the numbers of handles are those with something in their high half. To compare two
handles part by part, or to hash them part by part, is to compare their numbers. -/
namespace Strand.Handle
variable {h k : Handle} {raw : UInt64} {index generation : UInt32}

/-- The generation in the high 32 bits and the index in the low ones. -/
def pack (index generation : UInt32) : UInt64 := generation.toUInt64 <<< 32 ||| index.toUInt64

/-- The high 32 bits of a number. -/
def high (raw : UInt64) : UInt32 := (raw >>> 32).toUInt32

/-- The low 32 bits of a number. -/
def low (raw : UInt64) : UInt32 := raw.toUInt32

/-- Reads a number by its bits; nothing in the high ones is no generation. -/
def unpack (raw : UInt64) : Except HandleError Handle :=
  if h : high raw = 0 then .error (.invalid raw) else .ok ⟨low raw, ⟨high raw, h⟩⟩

/-- Whether two handles have the same index and the same generation. -/
def same (h k : Handle) : Bool := h.index == k.index && h.generation.val == k.generation.val

/-- Writes a handle to a hasher, first its index and then its generation. -/
def feed {σ : Type} (write : σ → UInt32 → σ) (state : σ) (h : Handle) : σ :=
  write (write state h.index) h.generation.val

lemma toNat_pack (index generation : UInt32) :
    (pack index generation).toNat = generation.toNat * 4294967296 + index.toNat := by
  have hindex : index.toNat < 2 ^ 32 := index.toNat_lt
  have hgeneration := generation.toNat_lt
  have hshift : generation.toNat <<< 32 % 2 ^ 64 = generation.toNat <<< 32 := by
    rw [Nat.shiftLeft_eq]
    omega
  have hamount : (32 : UInt64).toNat % 64 = 32 := rfl
  rw [pack, UInt64.toNat_or, UInt64.toNat_shiftLeft, UInt32.toNat_toUInt64, UInt32.toNat_toUInt64,
    hamount, hshift, ← Nat.shiftLeft_add_eq_or_of_lt hindex, Nat.shiftLeft_eq]

lemma toNat_high (raw : UInt64) : (high raw).toNat = raw.toNat / 4294967296 := by
  have hlt := raw.toNat_lt
  have hamount : (32 : UInt64).toNat % 64 = 32 := rfl
  rw [high, UInt64.toNat_toUInt32, UInt64.toNat_shiftRight, hamount, Nat.shiftRight_eq_div_pow]
  omega

lemma high_eq (raw : UInt64) : high raw = (raw / 4294967296).toUInt32 := by
  have hlt := raw.toNat_lt
  have hbase : (4294967296 : UInt64).toNat = 4294967296 := rfl
  apply UInt32.toNat_inj.mp
  rw [toNat_high, UInt64.toNat_toUInt32, UInt64.toNat_div, hbase]
  omega

/-- The number of a handle is its two parts, put side by side. -/
theorem toRaw_eq_pack (h : Handle) : h.toRaw = pack h.index h.generation.val := by
  apply UInt64.toNat_inj.mp
  rw [toNat_toRaw, toNat_pack]

/-- Dividing and cutting off read the same two parts as shifting does. -/
theorem ofRaw_eq_unpack (raw : UInt64) : ofRaw raw = unpack raw := by
  simp only [ofRaw, unpack, high_eq, low]

theorem toRaw_injective : Function.Injective toRaw := fun _ _ => toRaw_inj.mp

lemma same_iff : same h k = true ↔ h = k := by
  rw [same, Bool.and_eq_true, beq_iff_eq, beq_iff_eq]
  constructor
  · rintro ⟨hindex, hgeneration⟩
    exact ext_toNat (congrArg UInt32.toNat hindex) (Generation.ext hgeneration)
  · rintro rfl
    exact ⟨rfl, rfl⟩

/-- A hasher that keeps all it is told tells any two handles apart. -/
lemma same_iff_feed : same h k = true ↔
    ∀ (σ : Type) (write : σ → UInt32 → σ) (state : σ), feed write state h = feed write state k := by
  rw [same_iff]
  constructor
  · rintro rfl
    exact fun _ _ _ => rfl
  · intro hfeed
    have hwords : [h.index, h.generation.val] = [k.index, k.generation.val] :=
      hfeed (List UInt32) (fun words word => words ++ [word]) []
    obtain ⟨hindex, hrest⟩ := List.cons.inj hwords
    have hgeneration := (List.cons.inj hrest).1
    exact ext_toNat (congrArg UInt32.toNat hindex) (Generation.ext hgeneration)

lemma exists_ofRaw_iff : (∃ h, ofRaw raw = .ok h) ↔ 4294967296 ≤ raw := by
  have hbase : (4294967296 : UInt64).toNat = 4294967296 := rfl
  rw [UInt64.le_iff_toNat_le, hbase, ← Nat.not_lt]
  cases hraw : ofRaw raw with
  | error e => simp [(ofRaw_eq_error_iff.mp hraw).1]
  | ok h =>
    refine iff_of_true ⟨h, rfl⟩ fun hlt => ?_
    rw [ofRaw_eq_error_iff.mpr ⟨hlt, rfl⟩] at hraw
    cases hraw

/-- How handles and numbers stand to each other. -/
structure CodedInHalves : Prop where
  /-- Numbers are written and read by their bits. -/
  writes : ∀ h : Handle, h.toRaw = pack h.index h.generation.val
  reads : ∀ raw, ofRaw raw = unpack raw
  ok_iff : ∀ raw, (∃ h, ofRaw raw = .ok h) ↔ 4294967296 ≤ raw
  error_iff : ∀ raw e, ofRaw raw = .error e ↔ raw < 4294967296 ∧ e = .invalid raw
  toRaw_ofRaw : ∀ raw h, ofRaw raw = .ok h → h.toRaw = raw
  /-- Index and generation come back, whatever they are. -/
  restores : ∀ index generation (ne_zero : generation ≠ 0),
    ofRaw (toRaw ⟨index, ⟨generation, ne_zero⟩⟩) = .ok ⟨index, ⟨generation, ne_zero⟩⟩
  injective : Function.Injective toRaw
  ne_zero : ∀ h : Handle, h.toRaw ≠ 0
  /-- Two handles that were read are the same exactly if they were read from one number. -/
  same_iff : ∀ raw raw' h h', ofRaw raw = .ok h → ofRaw raw' = .ok h' →
    (same h h' = true ↔ raw = raw')
  /-- The same handles, and no others, are the same to every hasher. -/
  feeds : ∀ h k, same h k = true ↔
    ∀ (σ : Type) (write : σ → UInt32 → σ) (state : σ), feed write state h = feed write state k
  hash_eq : ∀ h k, same h k = true → hash h = hash k

/-- For all numbers of 64 bits, all indices and all generations. -/
theorem coded_in_halves : CodedInHalves where
  writes := toRaw_eq_pack
  reads := ofRaw_eq_unpack
  ok_iff _ := exists_ofRaw_iff
  error_iff raw e := by
    have hbase : (4294967296 : UInt64).toNat = 4294967296 := rfl
    rw [ofRaw_eq_error_iff, UInt64.lt_iff_toNat_lt, hbase]
  toRaw_ofRaw _ _ := toRaw_of_ofRaw
  restores _ _ _ := ofRaw_toRaw _
  injective := toRaw_injective
  ne_zero := toRaw_ne_zero
  same_iff raw raw' h h' hraw hraw' := by
    rw [Handle.same_iff, ← toRaw_inj, toRaw_of_ofRaw hraw, toRaw_of_ofRaw hraw']
  feeds _ _ := same_iff_feed
  hash_eq h k hsame := congrArg hash (Handle.same_iff.mp hsame)

/-- The greatest number is that of a handle. The greatest with nothing in its high half is not. -/
example : (ofRaw 18446744073709551615).map toRaw = .ok 18446744073709551615 ∧
    ofRaw 4294967295 = .error (.invalid 4294967295) := ⟨rfl, rfl⟩

end Strand.Handle
