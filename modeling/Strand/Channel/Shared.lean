import Strand.Channel.Basic

/-! A channel together with the callers parked on it. Every accepted value wakes one parked
receiver, every value taken wakes one parked sender, and a close wakes all. Which of several callers
is woken is an argument; a woken caller takes its turn again like any other. -/
namespace Strand

structure Shared (κ α : Type) where
  channel : Channel α
  senders : List κ
  receivers : List κ
  deriving Repr

/-- What a turn came to: its result, unless the caller was parked, and who was woken by it. -/
structure Turn (κ ρ : Type) where
  result : Option ρ
  woken : List κ
  events : List Channel.Event
  deriving Repr

/-- Picks one of the parked callers, if there is any: those woken and those that stay parked. -/
def wakeOne {κ : Type} (parked : List κ) (pick : Nat) : List κ × List κ :=
  (parked[pick % parked.length]?.toList, parked.eraseIdx (pick % parked.length))

namespace Shared
variable {κ α : Type}

def ofChannel (c : Channel α) : Shared κ α := ⟨c, [], []⟩

def parked (s : Shared κ α) : List κ := s.senders ++ s.receivers

def send (s : Shared κ α) (who : κ) (value : α) (pick : Nat) :
    Turn κ (SendResult α) × Shared κ α :=
  match s.channel.send? value with
  | none => (⟨none, [], []⟩, { s with senders := s.senders ++ [who] })
  | some (.rejected value, c) =>
    (⟨some (.rejected value), [], [.rejected]⟩, { s with channel := c })
  | some (.accepted, c) =>
    let (woken, receivers) := wakeOne s.receivers pick
    (⟨some .accepted, woken, [.sent c.len c.capacity]⟩,
      { s with channel := c, receivers := receivers })

def receive (s : Shared κ α) (who : κ) (pick : Nat) : Turn κ (Option α) × Shared κ α :=
  match s.channel.receive? with
  | none => (⟨none, [], []⟩, { s with receivers := s.receivers ++ [who] })
  | some (none, c) => (⟨some none, [], []⟩, { s with channel := c })
  | some (some value, c) =>
    let (woken, senders) := wakeOne s.senders pick
    (⟨some (some value), woken, [.received c.len c.capacity]⟩,
      { s with channel := c, senders := senders })

/-- A turn to close, which never waits and leaves nobody parked. -/
def close (s : Shared κ α) : Turn κ Bool × Shared κ α :=
  let (changed, c) := s.channel.close
  (⟨some changed, s.senders ++ s.receivers, if changed then [.closed c.len] else []⟩,
    { channel := c, senders := [], receivers := [] })

end Shared
end Strand
