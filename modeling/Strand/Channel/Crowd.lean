import Strand.Channel.Shared

/-! Any number of callers on one channel, each with a list of jobs to do in order, one turn of one
caller at a time. Who is next, and who is woken, are arguments, so that a run of turns is a run
under one particular schedule. -/
namespace Strand

inductive Job (α : Type)
  | send (value : α)
  | receive
  /-- Receives until the channel is closed and drained, or until so many values are in hand. -/
  | collect (limit : Option Nat)
  deriving DecidableEq, Repr

inductive Answer (α : Type)
  | sent (result : SendResult α)
  | received (value : Option α)
  | collected (items : List α)
  deriving DecidableEq, Repr

structure Caller (α : Type) where
  jobs : List (Job α)
  /-- What the collecting job in hand has received so far. -/
  items : List α
  answers : List (Answer α)
  deriving Repr

namespace Caller
variable {α : Type}

def ofJobs (jobs : List (Job α)) : Caller α := ⟨jobs, [], []⟩

instance : Inhabited (Caller α) := ⟨ofJobs []⟩

def isFinished (c : Caller α) : Bool := c.jobs.isEmpty

/-- The job in hand is done, and the next one begins with nothing collected. -/
def answer (c : Caller α) (a : Answer α) : Caller α := ⟨c.jobs.tail, [], c.answers ++ [a]⟩

/-- Takes one more value into the collection, which may complete it. -/
def gather (c : Caller α) (limit : Option Nat) (value : α) : Caller α :=
  let items := c.items ++ [value]
  if limit = some items.length then c.answer (.collected items) else { c with items := items }

end Caller

/-- A channel and its callers, who are known by their positions in the list. -/
structure Crowd (α : Type) where
  shared : Shared Nat α
  callers : List (Caller α)
  deriving Repr

namespace Crowd
variable {α : Type}

def ofChannel (c : Channel α) : Crowd α := ⟨Shared.ofChannel c, []⟩

def call (c : Crowd α) (jobs : List (Job α)) : Crowd α :=
  { c with callers := c.callers ++ [Caller.ofJobs jobs] }

def isReady (c : Crowd α) (who : Nat) : Bool :=
  match c.callers[who]? with
  | none => false
  | some caller => !caller.isFinished && !c.shared.parked.contains who

def ready (c : Crowd α) : List Nat := (List.range c.callers.length).filter c.isReady

def isSettled (c : Crowd α) : Bool := c.ready.isEmpty

def update (c : Crowd α) (who : Nat) (shared : Shared Nat α) (f : Caller α → Caller α) :
    Crowd α :=
  { shared := shared, callers := c.callers.modify who f }

@[simp] theorem shared_update (c : Crowd α) (who : Nat) (shared : Shared Nat α)
    (f : Caller α → Caller α) : (c.update who shared f).shared = shared := rfl

@[simp] theorem callers_update (c : Crowd α) (who : Nat) (shared : Shared Nat α)
    (f : Caller α → Caller α) : (c.update who shared f).callers = c.callers.modify who f := rfl

/-- One turn of a ready caller, which wakes the parked caller at position `pick` if it wakes one. -/
def turn (c : Crowd α) (who pick : Nat) : Option (Crowd α × List Channel.Event) :=
  if !c.isReady who then none
  else
    match c.callers[who]?.bind fun caller => caller.jobs.head? with
    | none => none
    | some (.send value) =>
      let (turn, shared) := c.shared.send who value pick
      match turn.result with
      | none => some (c.update who shared id, turn.events)
      | some result => some (c.update who shared (·.answer (.sent result)), turn.events)
    | some .receive =>
      let (turn, shared) := c.shared.receive who pick
      match turn.result with
      | none => some (c.update who shared id, turn.events)
      | some value => some (c.update who shared (·.answer (.received value)), turn.events)
    | some (.collect (some 0)) =>
      some (c.update who c.shared (·.answer (.collected [])), [])
    | some (.collect limit) =>
      let (turn, shared) := c.shared.receive who pick
      match turn.result with
      | none => some (c.update who shared id, turn.events)
      | some none =>
        some (c.update who shared (fun caller => caller.answer (.collected caller.items)),
          turn.events)
      | some (some value) =>
        some (c.update who shared (·.gather limit value), turn.events)

def close (c : Crowd α) : Bool × Crowd α × List Channel.Event :=
  let (turn, shared) := c.shared.close
  (turn.result.getD false, { c with shared := shared }, turn.events)

def jobWeight : Job α → Nat
  | .send _ => 6
  | .receive => 2
  | .collect _ => 2

def callerWeight (caller : Caller α) : Nat :=
  caller.jobs.foldr (fun job n => jobWeight job + n) 0

/-- Every turn makes this number smaller: a finished job outweighs the caller it may wake, a
buffered value the sender that its removal wakes, and a caller that parks leaves the ready ones. -/
def weight (c : Crowd α) : Nat :=
  c.callers.foldr (fun caller n => callerWeight caller + n) 0 + 2 * c.shared.channel.len +
    c.ready.length

/-- Takes up to `n` turns, always the first ready caller's, and the one parked longest is woken. -/
def run (c : Crowd α) : Nat → Crowd α × List Channel.Event
  | 0 => (c, [])
  | n + 1 =>
    match c.ready with
    | [] => (c, [])
    | who :: _ =>
      match c.turn who 0 with
      | none => (c, [])
      | some (c, events) =>
        let (c, more) := c.run n
        (c, events ++ more)

def settle (c : Crowd α) : Crowd α × List Channel.Event := c.run c.weight

end Crowd
end Strand
