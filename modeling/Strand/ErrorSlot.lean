/-! An error code per thread. The entry of a thread that has ended is handed unchanged to a later
one, so each entry names the thread whose code it holds, and starts over at zero when another thread
comes upon it. Which free entry a thread gets is an argument. -/
namespace Strand

def noError : Int64 := 0

/-- One thread's error state: the thread it belongs to, if any yet, and its code. -/
structure ErrorSlot (ι : Type) where
  owner : Option ι
  code : Int64
  deriving DecidableEq, Repr

namespace ErrorSlot
variable {ι : Type}

def vacant : ErrorSlot ι := ⟨none, noError⟩

/-- Makes `who` the owner. A slot last owned by another thread starts over. -/
def claim [DecidableEq ι] (slot : ErrorSlot ι) (who : ι) : ErrorSlot ι :=
  if slot.owner = some who then slot else ⟨some who, noError⟩

inductive Op
  | set (code : Int64)
  /-- Returns the code and resets it to zero. -/
  | take
  /-- Like `take`, but tells zero as the absence of a code. -/
  | takeCode
  | peek
  | isSet
  | clear
  deriving DecidableEq, Repr

inductive Answer
  | nothing
  | code (code : Int64)
  | code? (code : Option Int64)
  | flag (b : Bool)
  deriving DecidableEq, Repr

/-- The effect of an operation on a code that nobody else touches: its answer and the new code. -/
def Op.run : Op → Int64 → Answer × Int64
  | .set code, _ => (.nothing, code)
  | .take, code => (.code code, noError)
  | .takeCode, code => (.code? (if code = noError then none else some code), noError)
  | .peek, code => (.code code, code)
  | .isSet, code => (.flag (code != noError), code)
  | .clear, _ => (.nothing, noError)

def describe (me : String) (slot : ErrorSlot ι) : String :=
  "ErrorSlot \x7b owner: " ++
    (match slot.owner with
      | none => "None"
      | some _ => "Some(" ++ me ++ ")") ++
    ", code: " ++ toString slot.code.toInt ++ " \x7d"

end ErrorSlot

/-- The table of all error slots. A live thread that has touched its code holds one entry. -/
structure ErrorSlots (ι : Type) where
  entries : List (ErrorSlot ι)
  held : List (ι × Nat)
  deriving Repr

namespace ErrorSlots
variable {ι : Type}

def empty : ErrorSlots ι := ⟨[], []⟩

/-- Entries that no live thread holds. -/
def free (s : ErrorSlots ι) : List Nat :=
  (List.range s.entries.length).filter fun i => !(s.held.map (·.2)).contains i

variable [DecidableEq ι]

/-- The entry of a thread. One that has none yet gets the free entry at position `pick`, or a new
one when there is no such free entry. -/
def locate (s : ErrorSlots ι) (who : ι) (pick : Nat) : Nat × ErrorSlots ι :=
  match s.held.lookup who with
  | some i => (i, s)
  | none =>
    match s.free[pick]? with
    | some i => (i, { s with held := (who, i) :: s.held })
    | none =>
      (s.entries.length,
        { entries := s.entries ++ [ErrorSlot.vacant], held := (who, s.entries.length) :: s.held })

/-- The slot of a thread, found and claimed. -/
def current (s : ErrorSlots ι) (who : ι) (pick : Nat) : ErrorSlot ι × Nat × ErrorSlots ι :=
  let (i, s) := s.locate who pick
  let slot := (s.entries[i]?.getD ErrorSlot.vacant).claim who
  (slot, i, { s with entries := s.entries.set i slot })

def perform (s : ErrorSlots ι) (who : ι) (pick : Nat) (op : ErrorSlot.Op) :
    ErrorSlot.Answer × ErrorSlots ι :=
  let (slot, i, s) := s.current who pick
  let (answer, code) := op.run slot.code
  (answer, { s with entries := s.entries.set i { slot with code := code } })

/-- A thread ends; its entry keeps what it holds. -/
def exit (s : ErrorSlots ι) (who : ι) : ErrorSlots ι :=
  { s with held := s.held.filter fun entry => entry.1 ≠ who }

end ErrorSlots

/-- Threads that come and go under the same names. A name that is used again after its thread has
ended stands for a new thread, since the identity of a thread is never used twice. -/
structure Visitors where
  slots : ErrorSlots Nat
  running : List (Nat × Nat)
  next : Nat
  deriving Repr

namespace Visitors

def none : Visitors := ⟨ErrorSlots.empty, [], 0⟩

/-- The identity of the thread with a name, which is started if it is not running. -/
def identify (v : Visitors) (name : Nat) : Nat × Visitors :=
  match v.running.lookup name with
  | some who => (who, v)
  | .none => (v.next, { v with running := (name, v.next) :: v.running, next := v.next + 1 })

def perform (v : Visitors) (name : Nat) (op : ErrorSlot.Op) : ErrorSlot.Answer × Visitors :=
  let (who, v) := v.identify name
  let (answer, slots) := v.slots.perform who 0 op
  (answer, { v with slots := slots })

def describe (v : Visitors) (name : Nat) (me : String) : String × Visitors :=
  let (who, v) := v.identify name
  let (slot, _, slots) := v.slots.current who 0
  (slot.describe me, { v with slots := slots })

def exit (v : Visitors) (name : Nat) : Bool × Visitors :=
  match v.running.lookup name with
  | .none => (false, v)
  | some who =>
    (true,
      { v with
        slots := v.slots.exit who
        running := v.running.filter fun entry => entry.1 ≠ name })

end Visitors
end Strand
