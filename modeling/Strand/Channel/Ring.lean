import Strand.Memory

/-! A fixed row of slots used in a circle. Values are written at one cursor and taken at another,
both of which step around the row; what is buffered are the `len` slots from the read cursor
onwards. -/
namespace Strand

structure Ring (α : Type) where
  slots : Array (Option α)
  read : Nat
  write : Nat
  len : Nat
  sent : Nat
  received : Nat
  deriving Repr

namespace Ring
variable {α : Type}

def ofCapacity (capacity : Nat) : Ring α := ⟨Array.replicate capacity none, 0, 0, 0, 0, 0⟩

/-- A ring whose row of slots is asked for first, and then put into a ring that has none yet. -/
def ofCapacity? (memory slotSize capacity : Nat) : Except Memory.Shortage (Ring α) :=
  match Memory.shortage? memory (capacity * slotSize) with
  | some shortage => .error shortage
  | none => .ok { (ofCapacity 0 : Ring α) with slots := Array.replicate capacity none }

def capacity (r : Ring α) : Nat := r.slots.size

def isFull (r : Ring α) : Bool := r.len == r.capacity

def isEmpty (r : Ring α) : Bool := r.len == 0

/-- Puts a value in at the write cursor. Meant for a ring that is not full. -/
def push (r : Ring α) (value : α) : Ring α :=
  { r with
    slots := r.slots.setIfInBounds r.write (some value)
    write := (r.write + 1) % r.capacity
    len := r.len + 1
    sent := r.sent + 1 }

/-- Takes the value at the read cursor out; an empty ring gives none and stays as it is. -/
def pop (r : Ring α) : Option α × Ring α :=
  if r.isEmpty then (none, r)
  else
    (r.slots[r.read]?.join,
      { r with
        slots := r.slots.setIfInBounds r.read none
        read := (r.read + 1) % r.capacity
        len := r.len - 1
        received := r.received + 1 })

/-- The buffered values, oldest first: the slots from the read cursor onwards, around the end. -/
def toList (r : Ring α) : List α :=
  (List.range r.len).filterMap fun i => r.slots[(r.read + i) % r.capacity]?.join

theorem eq_ofCapacity {memory slotSize capacity : Nat} {r : Ring α}
    (granted : ofCapacity? memory slotSize capacity = .ok r) : r = ofCapacity capacity := by
  unfold ofCapacity? at granted
  split at granted
  · cases granted
  · exact (Except.ok.inj granted).symm

@[simp] theorem toList_ofCapacity (n : Nat) : (ofCapacity n : Ring α).toList = [] := by
  simp [toList, ofCapacity]

@[simp] theorem capacity_ofCapacity (n : Nat) : (ofCapacity n : Ring α).capacity = n := by
  simp [capacity, ofCapacity]

@[simp] theorem capacity_push (r : Ring α) (value : α) : (r.push value).capacity = r.capacity := by
  simp [capacity, push]

@[simp] theorem capacity_pop (r : Ring α) : r.pop.2.capacity = r.capacity := by
  unfold pop
  split <;> simp [capacity]

end Ring
end Strand
