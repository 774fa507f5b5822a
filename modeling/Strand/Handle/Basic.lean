import Strand.Text.Quoted

/-! Handles: a slot's index together with the generation the slot had when the handle was issued. A
handle travels as one 64-bit number, the generation in its high half and the index in its low half.
Generations are never zero, so no handle is below `2 ^ 32` and zero stays free for "none". -/
namespace Strand

/-- A slot's generation, from 1 up to `2 ^ 32 - 1`. -/
structure Generation where
  val : UInt32
  ne_zero : val ≠ 0
  deriving DecidableEq, Repr

namespace Generation

def first : Generation := ⟨1, by decide⟩

def next? (g : Generation) : Option Generation :=
  if h : g.val + 1 = 0 then none else some ⟨g.val + 1, h⟩

@[ext] theorem ext {g k : Generation} (h : g.val = k.val) : g = k := by
  cases g; cases k; cases h; rfl

end Generation

structure Handle where
  index : UInt32
  generation : Generation
  deriving DecidableEq, Repr

/-- Why a raw number gives no access to a stored value. -/
inductive HandleError
  /-- It names no slot that was ever made, or it is below every handle. -/
  | invalid (raw : UInt64)
  /-- Its slot exists and holds nothing under this generation. -/
  | stale (raw : UInt64)
  /-- No slot is left to store a value in. -/
  | exhausted
  deriving DecidableEq, Repr

def showRaw (raw : UInt64) : String := "0x" ++ Text.hexDigits raw.toNat

def HandleError.message : HandleError → String
  | .invalid raw => "Invalid handle: " ++ showRaw raw
  | .stale raw => "Stale handle: " ++ showRaw raw
  | .exhausted => "Handle table exhausted"

namespace Handle

/-- Generation times `2 ^ 32` plus index. -/
def toRaw (h : Handle) : UInt64 :=
  h.generation.val.toUInt64 * 4294967296 + h.index.toUInt64

def ofRaw (raw : UInt64) : Except HandleError Handle :=
  if h : (raw / 4294967296).toUInt32 = 0 then .error (.invalid raw)
  else .ok ⟨raw.toUInt32, ⟨(raw / 4294967296).toUInt32, h⟩⟩

/-- Equal handles have one raw number and unequal handles two, so the raw number is the hash. -/
instance : Hashable Handle := ⟨toRaw⟩

def display (h : Handle) : String := showRaw h.toRaw

def describe (h : Handle) : String :=
  "Handle \x7b index: " ++ toString h.index.toNat ++
    ", generation: " ++ toString h.generation.val.toNat ++ " \x7d"

end Handle
end Strand
