import Strand.Handle.Basic

/-! A table of values addressed by handles. Removing a value moves its slot to the next generation,
so that an old handle never reaches what is stored there later; a slot at the last generation is not
used again. -/
namespace Strand

/-- One place of a table: the generation of the next or current handle, and the value if any. -/
structure Slot (α : Type) where
  generation : Generation
  value : Option α
  deriving Repr

structure Table (α : Type) where
  slots : Array (Slot α)
  /-- Vacant slots that can be filled again, the one freed last in front. -/
  free : List UInt32
  occupied : Nat
  deriving Repr

namespace Table
variable {α β : Type}

def empty : Table α := ⟨#[], [], 0⟩

instance : Inhabited (Table α) := ⟨empty⟩

/-- Indices are 32 bits wide. -/
def maxSlots : Nat := 4294967296

def size (t : Table α) : Nat := t.occupied

def isEmpty (t : Table α) : Bool := t.size == 0

/-- The value a handle stands for: its slot exists, has its generation and holds one. -/
def find (t : Table α) (h : Handle) : Except HandleError α :=
  match t.slots[h.index.toNat]? with
  | none => .error (.invalid h.toRaw)
  | some slot =>
    match slot.value with
    | some value => if slot.generation = h.generation then .ok value else .error (.stale h.toRaw)
    | none => .error (.stale h.toRaw)

/-- Stores a value in the slot freed last, or in a new slot when none is free. -/
def insert (t : Table α) (value : α) : Except HandleError (Handle × Table α) :=
  match t.free with
  | index :: free =>
    match t.slots[index.toNat]? with
    | some slot =>
      .ok (⟨index, slot.generation⟩,
        { slots := t.slots.setIfInBounds index.toNat { slot with value := some value }
          free := free
          occupied := t.occupied + 1 })
    | none => .error .exhausted
  | [] =>
    if t.slots.size < maxSlots then
      .ok (⟨UInt32.ofNat t.slots.size, Generation.first⟩,
        { slots := t.slots.push ⟨Generation.first, some value⟩
          free := []
          occupied := t.occupied + 1 })
    else .error .exhausted

/-- Takes the value of a handle out. The slot goes on to its next generation and may be filled
again; at the last generation it stays vacant for good. -/
def remove (t : Table α) (h : Handle) : Except HandleError (α × Table α) :=
  match t.find h with
  | .error e => .error e
  | .ok value =>
    match h.generation.next? with
    | some next =>
      .ok (value,
        { slots := t.slots.setIfInBounds h.index.toNat ⟨next, none⟩
          free := h.index :: t.free
          occupied := t.occupied - 1 })
    | none =>
      .ok (value,
        { slots := t.slots.setIfInBounds h.index.toNat ⟨h.generation, none⟩
          free := t.free
          occupied := t.occupied - 1 })

def findRaw (t : Table α) (raw : UInt64) : Except HandleError α :=
  match Handle.ofRaw raw with
  | .error e => .error e
  | .ok h => t.find h

def removeRaw (t : Table α) (raw : UInt64) : Except HandleError (α × Table α) :=
  match Handle.ofRaw raw with
  | .error e => .error e
  | .ok h => t.remove h

def inspect (t : Table α) (h : Handle) (f : α → β) : Except HandleError β :=
  (t.find h).map f

/-- Stores a value and takes it out again, `n` times; the last handle issued, if any. -/
def cycle (t : Table α) (value : α) : Nat → Except HandleError (Option Handle × Table α)
  | 0 => .ok (none, t)
  | n + 1 =>
    match t.cycle value n with
    | .error e => .error e
    | .ok (_, t) =>
      match t.insert value with
      | .error e => .error e
      | .ok (h, t) =>
        match t.remove h with
        | .error e => .error e
        | .ok (_, t) => .ok (some h, t)

def describe (t : Table α) : String :=
  "HandleTable \x7b capacity: " ++ toString t.slots.size ++
    ", occupied: " ++ toString t.occupied ++ " \x7d"

end Table
end Strand
