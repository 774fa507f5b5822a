import Strand.Channel.Ring
import Strand.Log

/-! A bounded channel, as it is between two turns under its lock. Each operation is one turn; a turn
that cannot go on yet answers `none`, and its caller has to wait and try again. -/
namespace Strand

structure Channel (α : Type) where
  ring : Ring α
  closed : Bool
  rejected : Nat
  deriving Repr

/-- What a send came to. A value turned away goes back to the sender. -/
inductive SendResult (α : Type)
  | accepted
  | rejected (value : α)
  deriving DecidableEq, Repr

def SendResult.rejectionMessage : String := "sending on a closed channel"

def SendResult.rejectionDescription : String := "SendError \x7b .. \x7d"

structure ChannelStats where
  capacity : Nat
  len : Nat
  sent : Nat
  received : Nat
  rejected : Nat
  closed : Bool
  deriving DecidableEq, Repr

namespace Channel
variable {α : Type}

/-- What a turn reports: the new number of buffered values stands next to the capacity. -/
inductive Event
  | created (capacity : Nat)
  | sent (len capacity : Nat)
  | rejected
  | received (len capacity : Nat)
  | closed (len : Nat)
  deriving DecidableEq, Repr

def Event.line : Event → Log.Line
  | .created capacity => ⟨.debug, "Creating channel with capacity " ++ toString capacity⟩
  | .sent len capacity =>
    ⟨.trace, "Sent value (" ++ toString len ++ "/" ++ toString capacity ++ " buffered)"⟩
  | .rejected => ⟨.trace, "Send rejected: channel closed"⟩
  | .received len capacity =>
    ⟨.trace, "Received value (" ++ toString len ++ "/" ++ toString capacity ++ " buffered)"⟩
  | .closed len => ⟨.debug, "Channel closed with " ++ toString len ++ " value(s) buffered"⟩

/-- An open, empty channel. A capacity of zero is raised to one. -/
def ofCapacity (capacity : Nat) : Channel α := ⟨Ring.ofCapacity (max capacity 1), false, 0⟩

def slotSize : Nat := 16

/-- A channel of the given capacity, unless there is no memory for its buffer. -/
def ofCapacity? (memory capacity : Nat) : Except Memory.Shortage (Channel α) :=
  (Ring.ofCapacity? memory slotSize (max capacity 1)).map fun ring => ⟨ring, false, 0⟩

theorem eq_ofCapacity {memory capacity : Nat} {c : Channel α}
    (granted : ofCapacity? memory capacity = .ok c) : c = ofCapacity capacity := by
  unfold ofCapacity? at granted
  cases hring : (Ring.ofCapacity? memory slotSize (max capacity 1) : Except _ (Ring α)) with
  | error shortage =>
    rw [hring] at granted
    cases granted
  | ok ring =>
    rw [hring] at granted
    cases granted
    rw [ofCapacity, Ring.eq_ofCapacity hring]

def capacity (c : Channel α) : Nat := c.ring.capacity

def len (c : Channel α) : Nat := c.ring.len

def hasData (c : Channel α) : Bool := !c.ring.isEmpty

def isEmpty (c : Channel α) : Bool := !c.hasData

def stats (c : Channel α) : ChannelStats :=
  { capacity := c.capacity
    len := c.len
    sent := c.ring.sent
    received := c.ring.received
    rejected := c.rejected
    closed := c.closed }

/-- A sender's turn: a closed channel turns the value away, a full one makes the sender wait. -/
def send? (c : Channel α) (value : α) : Option (SendResult α × Channel α) :=
  if c.closed then some (.rejected value, { c with rejected := c.rejected + 1 })
  else if c.ring.isFull then none
  else some (.accepted, { c with ring := c.ring.push value })

/-- A receiver's turn: the oldest value; none once the channel is closed and drained; while it is
open and empty the receiver waits. -/
def receive? (c : Channel α) : Option (Option α × Channel α) :=
  if c.ring.isEmpty && !c.closed then none
  else some (c.ring.pop.1, { c with ring := c.ring.pop.2 })

/-- Closes the channel, and says whether this call did it. -/
def close (c : Channel α) : Bool × Channel α := (!c.closed, { c with closed := true })

def describe (c : Channel α) : String :=
  "Channel \x7b capacity: " ++ toString c.capacity ++ ", len: " ++ toString c.len ++
    ", closed: " ++ toString c.closed ++ " \x7d"

end Channel
end Strand
