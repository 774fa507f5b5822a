import Strand.Crew.Error
import Strand.Crew.Worker
import Strand.Settings.Error
import Strand.Log
import Strand.Memory

/-! A crew of threads. Every attempt to start a worker takes the next number, from one on, whether
or not the system grants it. Starting, running, ending and joining a worker are made of small
actions by three sides: the party that spawns, the worker itself, and the party that joins. -/
namespace Strand

structure CrewStats where
  spawned : Nat
  detached : Nat
  joinable : Nat
  joined : Nat
  panicked : Nat
  /-- An integer, so that nothing hides in a subtraction. -/
  live : Int
  deriving DecidableEq, Repr

namespace CrewStats

def zero : CrewStats := ⟨0, 0, 0, 0, 0, 0⟩

def describe (s : CrewStats) : String :=
  "ThreadStats \x7b spawned: " ++ toString s.spawned ++ ", detached: " ++ toString s.detached ++
    ", joinable: " ++ toString s.joinable ++ ", joined: " ++ toString s.joined ++
    ", panicked: " ++ toString s.panicked ++ ", live: " ++ toString s.live ++ " \x7d"

end CrewStats

structure Crew where
  settings : Settings
  workers : List Worker
  stats : CrewStats
  deriving Repr

namespace Crew

def ofSettings (s : Settings) : Crew := ⟨s, [], CrewStats.zero⟩

def creationLine (s : Settings) : Log.Line :=
  ⟨.info, "Creating thread manager (prefix: " ++ s.namePrefix ++ ", stack size: " ++
    Settings.describeSize s.stackSize ++ ")"⟩

def idOf (who : Nat) : Nat := who + 1

def nameOf (c : Crew) (who : Nat) : String :=
  c.settings.namePrefix ++ "-" ++ toString (idOf who)

/-- One small step in the life of a worker, by one of the sides. -/
inductive Deed
  | grant
  | refuse (source : SystemError)
  | count
  /-- Counts the worker under its mode and hands its handle out, if it has one. -/
  | announce
  | begin
  | stop (ending : Ending)
  | leave
  | join (caller : Party)
  /-- The end of a join, which waits until the worker's body is over. -/
  | collect
  | drop
  deriving DecidableEq, Repr

inductive Action
  /-- Asks for a worker: takes a number, and counts the worker as live before it exists. -/
  | request (mode : SpawnMode)
  | worker (who : Nat) (deed : Deed)
  deriving DecidableEq, Repr

/-- What an action means to the party that waits for its outcome. -/
inductive Outcome
  | spawned (who : Nat)
  | joined
  | failed (e : ThreadError)
  deriving DecidableEq, Repr

structure Report where
  lines : List Log.Line
  outcome : Option Outcome
  deriving DecidableEq, Repr

namespace Report

def quiet : Report := ⟨[], none⟩

def line (level : Log.Level) (text : String) : Report := ⟨[⟨level, text⟩], none⟩

def yields (outcome : Outcome) : Report := ⟨[], some outcome⟩

end Report

def request (c : Crew) (mode : SpawnMode) : Crew :=
  { c with
    workers := c.workers ++ [⟨mode, .requested, .unborn, .none⟩]
    stats := { c.stats with live := c.stats.live + 1 } }

def stopLine (name : String) (ending : Ending) : Log.Line :=
  match ending.panic? with
  | none => ⟨.trace, name ++ ": work returned"⟩
  | some message => ⟨.error, name ++ ": work panicked: " ++ message⟩

/-- What the end of a join reports. A second panic ended the thread around the work; it was logged
by nobody so far. -/
def collectReport (name : String) (ending : Ending) : Report :=
  ⟨match ending with
    | .panickedTwice second =>
      [⟨.error, name ++ ": thread wrapper panicked: " ++ second.message⟩]
    | _ => [],
    some (match ending.fault? with
      | none => .joined
      | some message => .failed (.panicked name message))⟩

/-- What a deed does: to the worker, to the counters, and in words. -/
structure Change where
  worker : Worker
  stats : CrewStats
  report : Report
  deriving Repr

/-- A deed of the worker at position `who`, if the worker is ready for it. -/
def change? (who : Nat) (name : String) (w : Worker) (stats : CrewStats) : Deed → Option Change
  | .grant =>
    if w.launch = .requested then
      some ⟨{ w with launch := .granted, body := .waiting }, stats, .quiet⟩
    else none
  | .refuse source =>
    if w.launch = .requested then
      some ⟨{ w with launch := .refused }, { stats with live := stats.live - 1 },
        ⟨[⟨.warn, "Failed to spawn " ++ name ++ ": " ++ source.message⟩],
          some (.failed (.spawnFailed source))⟩⟩
    else none
  | .count =>
    if w.launch = .granted then
      some ⟨{ w with launch := .counted }, { stats with spawned := stats.spawned + 1 }, .quiet⟩
    else none
  | .announce =>
    if w.launch = .counted then
      match w.mode with
      | .detached =>
        some ⟨{ w with launch := .announced }, { stats with detached := stats.detached + 1 },
          ⟨[⟨.debug, "Spawned " ++ name ++ " (detached)"⟩], some (.spawned who)⟩⟩
      | .joinable =>
        some ⟨{ w with launch := .announced, claim := .held },
          { stats with joinable := stats.joinable + 1 },
          ⟨[⟨.debug, "Spawned " ++ name ++ " (joinable)"⟩], some (.spawned who)⟩⟩
    else none
  | .begin =>
    if w.body = .waiting then
      some ⟨{ w with body := .working }, stats, .line .trace (name ++ ": starting")⟩
    else none
  | .stop ending =>
    if w.body = .working then
      some ⟨{ w with body := .stopped ending },
        { stats with panicked := stats.panicked + (if ending = .returned then 0 else 1) },
        ⟨[stopLine name ending], none⟩⟩
    else none
  | .leave =>
    match w.body with
    | .stopped ending =>
      some ⟨{ w with body := .over ending }, { stats with live := stats.live - 1 }, .quiet⟩
    | _ => none
  | .join caller =>
    if w.claim = .held then
      if caller = .worker who then
        some ⟨{ w with claim := .spent }, stats, .yields (.failed (.selfJoin name))⟩
      else some ⟨{ w with claim := .joining }, stats, .line .debug ("Joining " ++ name)⟩
    else none
  | .collect =>
    if w.claim = .joining then
      match w.body with
      | .over ending =>
        some ⟨{ w with claim := .spent }, { stats with joined := stats.joined + 1 },
          collectReport name ending⟩
      | _ => none
    else none
  | .drop =>
    if w.claim = .held then some ⟨{ w with claim := .spent }, stats, .quiet⟩ else none

/-- Takes one action, if it is enabled. -/
def step (c : Crew) : Action → Option (Crew × Report)
  | .request mode => some (c.request mode, .quiet)
  | .worker who deed =>
    match c.workers[who]? with
    | none => none
    | some w =>
      (change? who (c.nameOf who) w c.stats deed).map fun change =>
        ({ c with workers := c.workers.set who change.worker, stats := change.stats },
          change.report)

/-- What a sequence of actions comes to: all lines in order, and the last outcome. -/
def run (c : Crew) : List Action → Crew × Report
  | [] => (c, .quiet)
  | a :: rest =>
    match c.step a with
    | none => (c, .quiet)
    | some (c, first) =>
      let (c, more) := c.run rest
      (c, ⟨first.lines ++ more.lines, more.outcome <|> first.outcome⟩)

/-- The bytes in front of a stack that catch an overflow. -/
def guardSize : Nat := 4096

/-- What the system answers to a request under given settings. The size of a stack and its guard has
to be a number of 64 bits; a stack for which there is no memory may be asked for again. -/
def refusal? (memory : Nat) (s : Settings) : Option SystemError :=
  match s.stackSize with
  | some size =>
    if UInt64.size ≤ size.toNat + guardSize then some .invalidArgument
    else (Memory.shortage? memory size.toNat).map fun _ => .tryAgain
  | none => none

/-- The actions of the spawning party after its request, for the worker at a position. -/
def launchActions (memory : Nat) (s : Settings) (who : Nat) : List Action :=
  match refusal? memory s with
  | some source => [.worker who (.refuse source)]
  | none => [.worker who .grant, .worker who .count, .worker who .announce]

/-- Spawns a worker, with no other side in between. -/
def spawn (memory : Nat) (c : Crew) (mode : SpawnMode) : Crew × Report :=
  c.run (.request mode :: launchActions memory c.settings c.workers.length)

def describeHandle (c : Crew) (who : Nat) (w : Worker) : String :=
  "ThreadHandle \x7b id: " ++ toString (idOf who) ++ ", name: " ++ Text.quoted (c.nameOf who) ++
    ", finished: " ++ toString w.isFinished ++ " \x7d"

def describe (c : Crew) : String :=
  "ThreadManager \x7b config: " ++ c.settings.describe ++ ", stats: " ++ c.stats.describe ++ " \x7d"

def ofSettings? (s : Settings) : Except SettingsError Crew := s.validated.map ofSettings

end Crew
end Strand
