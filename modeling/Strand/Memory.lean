/-! Memory, which comes in pieces that may be refused. -/
namespace Strand.Memory

/-- The most bytes that one piece may be asked to have, whatever memory there is. -/
def maxRequest : Nat := 9223372036854775807

inductive Shortage
  | unnameable
  | missing
  deriving DecidableEq, Repr

def Shortage.message : Shortage → String
  | .unnameable =>
    "memory allocation failed because the computed capacity exceeded the collection's maximum"
  | .missing => "memory allocation failed because the memory allocator returned an error"

/-- Why a piece of so many bytes cannot be had, where a piece of up to `memory` bytes can. -/
def shortage? (memory bytes : Nat) : Option Shortage :=
  if maxRequest < bytes then some .unnameable
  else if memory < bytes then some .missing
  else none

end Strand.Memory
