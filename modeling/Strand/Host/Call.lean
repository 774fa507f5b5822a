import Strand.Crew.Basic

/-! The calls by which compiled programs use the library, in whole numbers only. The type of handles
is a parameter, so that a program can also be written before its handles are known. -/
namespace Strand

inductive Call (η : Type)
  | newChannel (capacity : Int64)
  | send (ch : η) (value : Int64)
  | receive (ch : η)
  /-- Receives into a place. The call knows what stands there before, or that there is no place. -/
  | receiveTagged (ch : η) (out : Option Int64)
  | close (ch : η)
  | hasData (ch : η)
  | isClosed (ch : η)
  | release (ch : η)
  | setError (code : Int64)
  | takeError
  | hasError
  | clearError
  /-- Starts a thread, if some work is given. -/
  | spawn (mode : SpawnMode) (given : Bool)
  | join (h : η)
  | sleep (milliseconds : Int64)
  | liveCount
  deriving DecidableEq, Repr

namespace Call
variable {η θ : Type}

def map (f : η → θ) : Call η → Call θ
  | .newChannel capacity => .newChannel capacity
  | .send ch value => .send (f ch) value
  | .receive ch => .receive (f ch)
  | .receiveTagged ch out => .receiveTagged (f ch) out
  | .close ch => .close (f ch)
  | .hasData ch => .hasData (f ch)
  | .isClosed ch => .isClosed (f ch)
  | .release ch => .release (f ch)
  | .setError code => .setError code
  | .takeError => .takeError
  | .hasError => .hasError
  | .clearError => .clearError
  | .spawn mode given => .spawn mode given
  | .join h => .join (f h)
  | .sleep milliseconds => .sleep milliseconds
  | .liveCount => .liveCount

end Call

inductive Reply
  | nothing
  | code (value : Int64)
  | flag (b : Bool)
  | handle (raw : UInt64)
  /-- Whether a value was written, and what stands at the place now if there is one. -/
  | tagged (written : Bool) (out : Option Int64)
  deriving DecidableEq, Repr

def noHandle : UInt64 := 0

/-- The token of a detached thread: the low half of its number, and never zero. The high half stays
zero, so that no handle is like it. -/
def detachedToken (id : UInt64) : UInt64 := max (id &&& 0xffffffff) 1

end Strand
