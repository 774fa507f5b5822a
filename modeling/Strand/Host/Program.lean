import Strand.Host.Step

/-! Programs on a host. After each call of the main thread every thread goes on until it has ended
or is blocked; of those that can go on, the one that was started first does. -/
namespace Strand.Host

/-- A handle in the program of a started thread: a number, or the one its own start returned. -/
inductive Operand
  | raw (h : UInt64)
  | self
  deriving DecidableEq, Repr

def Operand.value (self : UInt64) : Operand → UInt64
  | .raw h => h
  | .self => self

inductive Order
  | call (c : Call UInt64)
  | start (mode : SpawnMode) (work : List (Call Operand))
  deriving Repr

def Order.toCall : Order → Call UInt64
  | .call c => c
  | .start mode _ => .spawn mode true

structure Record where
  reply : Reply
  lines : List Log.Line
  deriving Repr

structure Script where
  /-- The position of the worker, if there is one. -/
  worker : Option Nat
  self : UInt64
  todo : List (Call Operand)
  records : List Record
  logged : List Log.Line
  deriving Repr

namespace Script

def isDone (s : Script) : Bool := s.todo.isEmpty

def advance (s : Script) (lines : List Log.Line) : Option Reply → Script
  | none => { s with logged := s.logged ++ lines }
  | some reply =>
    { s with
      todo := s.todo.tail
      records := s.records ++ [⟨reply, s.logged ++ lines⟩]
      logged := [] }

end Script

structure Machine where
  /-- Of how many bytes a piece of memory can be, throughout. -/
  memory : Nat
  host : Host
  scripts : List Script
  deriving Repr

namespace Machine

/-- The system refuses what the settings make impossible, and nothing else. -/
def chance (m : Machine) : Chance :=
  ⟨0, m.host.crew.bind fun crew => Crew.refusal? m.memory crew.settings, m.memory⟩

def action? (m : Machine) (s : Script) (k : Nat) : Option Action :=
  match (m.host.crew.bind fun crew => crew.workers[k]?).map Worker.body with
  | some .waiting => some (.begin k)
  | some .working =>
    if (m.host.busy.lookup (.worker k)).isSome then some (.resume (.worker k))
    else
      match s.todo with
      | [] => some (.stop k)
      | c :: _ => some (.call (.worker k) (c.map (Operand.value s.self)))
  | some (.stopped _) => some (.leave k)
  | _ => none

def ofCall : Action → Bool
  | .call _ _ => true
  | .resume _ => true
  | _ => false

def advance (m : Machine) (i : Nat) : Option Machine :=
  match m.scripts[i]? with
  | none => none
  | some s =>
    match s.worker.bind (m.action? s) with
    | none => none
    | some a =>
      (m.host.step m.chance a).map fun effect =>
        { m with
          host := effect.host
          scripts :=
            if ofCall a then m.scripts.set i (s.advance effect.lines effect.reply)
            else m.scripts }

/-- No more steps can be taken before every thread has ended or is blocked: a call takes at most
four steps, and each time a thread is woken it may find nothing and park again. -/
def effort (m : Machine) : Nat :=
  m.scripts.foldr (fun s n => (s.todo.length + 1) * (m.scripts.length + 8) + n) 0

/-- Takes up to `n` steps, each of the first thread that can take one. -/
def run (m : Machine) : Nat → Machine
  | 0 => m
  | n + 1 =>
    match (List.range m.scripts.length).findSome? m.advance with
    | none => m
    | some m => m.run n

def settle (m : Machine) : Machine := m.run m.effort

def mainThread : Party := .outside 0

/-- Goes on with a call of the main thread. No call has more than five steps that do not wait. -/
def finish (m : Machine) (effect : Effect) : Nat → Option (Machine × Record)
  | 0 => none
  | n + 1 =>
    match effect.reply with
    | some reply => some ({ m with host := effect.host }, ⟨reply, effect.lines⟩)
    | none =>
      let m := { m with host := effect.host }
      match m.host.step m.chance (.resume mainThread) with
      | none => none
      | some next => m.finish { next with lines := effect.lines ++ next.lines } n

def perform (m : Machine) (c : Call UInt64) : Option (Machine × Record) :=
  (m.host.step m.chance (.call mainThread c)).bind fun effect => m.finish effect 6

def enlist (m : Machine) (work : List (Call Operand)) : Reply → Machine
  | .handle raw =>
    let worker :=
      if raw = noHandle then none else m.host.crew.map fun crew => crew.workers.length - 1
    { m with scripts := m.scripts ++ [⟨worker, raw, work, [], []⟩] }
  | _ => m

def obey (m : Machine) (order : Order) : Option (Machine × Record) :=
  (m.perform order.toCall).map fun (m, record) =>
    let m :=
      match order with
      | .call _ => m
      | .start _ work => m.enlist work record.reply
    (m.settle, record)

def progress (m : Machine) : List Nat := m.scripts.map fun s => s.records.length

end Machine

structure Step where
  record : Record
  progress : List Nat
  deriving Repr

/-- Carries the orders out one by one, as long as the main thread is not blocked. -/
def obeyAll (m : Machine) : List Order → List Step × Machine
  | [] => ([], m)
  | order :: orders =>
    match m.obey order with
    | none => ([], m)
    | some (m, record) =>
      let (steps, last) := obeyAll m orders
      (⟨record, m.progress⟩ :: steps, last)

/-- Runs a program on a new host: its steps, and its threads as they stand at the end. -/
def runProgram (memory : Nat) (source : Settings.Source) (orders : List Order) :
    List Step × List Script :=
  let (steps, m) := obeyAll ⟨memory, ofSource source, []⟩ orders
  (steps, m.scripts)

end Strand.Host
