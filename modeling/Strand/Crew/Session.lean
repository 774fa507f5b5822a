import Strand.Crew.Basic

/-! A conversation with one crew. Each request is followed by as many actions as it takes until
every worker has ended or stands at its gate. -/
namespace Strand.Crew

inductive Work
  | returns
  /-- Says under which name it runs. -/
  | reportsName
  | panics (payload : Payload)
  | panicsTwice (second : Payload)
  /-- Waits until it is let through. -/
  | gate
  deriving DecidableEq, Repr

/-- How the work ends by itself; a gate does not. -/
def Work.ending? : Work → Option Ending
  | .returns => some .returned
  | .reportsName => some .returned
  | .panics payload => some (.panicked payload)
  | .panicsTwice second => some (.panickedTwice second)
  | .gate => none

/-- What a worker does once it is let through its gate. -/
inductive Passage
  | returns
  | panics (message : String)
  /-- Takes its own handle, if there still is one, and joins it; then it returns. -/
  | joinsItself
  deriving DecidableEq, Repr

def Passage.ending : Passage → Ending
  | .panics message => .panicked (.text message)
  | _ => .returned

/-- A request. Workers are known by their positions, counted from zero over all attempts. -/
inductive Request
  | spawn (mode : SpawnMode) (work : Work)
  | release (who : Nat) (passage : Passage)
  | join (who : Nat)
  | drop (who : Nat)
  | isFinished (who : Nat)
  | describe (who : Nat)
  | info (who : Nat)
  | describeCrew
  deriving DecidableEq, Repr

namespace Session

inductive Answer
  /-- A new worker: its number, its name if it has a handle, and what its work reports. -/
  | spawned (id : Nat) (name : Option String) (out : Option String)
  | joined
  | blocked
  | failed (e : ThreadError)
  | flag (b : Bool)
  | nothing
  | text (s : String)
  | info (id : Nat) (name : String) (isCurrent : Bool)
  | noHandle
  deriving DecidableEq, Repr

def Answer.ofOutcome : Option Outcome → Answer
  | some .joined => .joined
  | some (.failed e) => .failed e
  | _ => .nothing

structure Reply where
  answer : Answer
  stats : CrewStats
  /-- The joins that waited and are through, each with the position of its worker. -/
  done : List (Nat × Answer)
  lines : List Log.Line
  background : List Log.Line
  deriving Repr

end Session

/-- A crew all of whose workers have ended or stand at a gate. Its bodies that are working are those
at a gate, and its claims that are joining belong to joins that wait for one of them. -/
structure Session where
  crew : Crew
  deriving Repr

namespace Session

/-- What was done in the background: the lines of other threads, and joins that came through. -/
structure Wake where
  lines : List Log.Line
  done : List (Nat × Answer)
  deriving Repr

def Wake.nothing : Wake := ⟨[], []⟩

/-- A worker ends its work, and with it a join that waits for it. -/
def finish (c : Crew) (who : Nat) (ending : Ending) : Crew × Wake :=
  let (c, ended) := c.run [.worker who (.stop ending), .worker who .leave]
  match c.step (.worker who .collect) with
  | none => (c, ⟨ended.lines, []⟩)
  | some (c, joined) =>
    (c, ⟨ended.lines ++ joined.lines, [(who, .ofOutcome joined.outcome)]⟩)

/-- A new worker runs until it has ended or stands at its gate. -/
def runWork (c : Crew) (who : Nat) (work : Work) : Crew × Wake :=
  let (c, begun) := c.run [.worker who .begin]
  match work.ending? with
  | none => (c, ⟨begun.lines, []⟩)
  | some ending =>
    let (c, wake) := finish c who ending
    (c, ⟨begun.lines ++ wake.lines, wake.done⟩)

private def reply (c : Crew) (answer : Answer) (lines : List Log.Line) (wake : Wake) :
    Session × Reply :=
  (⟨c⟩, ⟨answer, c.stats, wake.done, lines, wake.lines⟩)

def held? (c : Crew) (who : Nat) : Option Worker :=
  c.workers[who]?.filter fun w => w.claim = .held

def spawn (memory : Nat) (c : Crew) (mode : SpawnMode) (work : Work) : Session × Reply :=
  let (c, report) := c.spawn memory mode
  match report.outcome with
  | some (.spawned who) =>
    let (c, wake) := runWork c who work
    reply c
      (.spawned (idOf who) (if mode = .joinable then some (c.nameOf who) else none)
        (if work = .reportsName then some (c.nameOf who) else none))
      report.lines wake
  | outcome => reply c (.ofOutcome outcome) report.lines .nothing

def release (c : Crew) (who : Nat) (passage : Passage) : Session × Reply :=
  if (c.workers[who]?.filter Worker.isWorking).isSome then
    match passage, held? c who with
    | .joinsItself, some _ =>
      let (c, report) := c.run [.worker who (.join (.worker who))]
      let (c, wake) := finish c who .returned
      reply c (.ofOutcome report.outcome) [] { wake with lines := report.lines ++ wake.lines }
    | passage, _ =>
      let (c, wake) := finish c who passage.ending
      reply c (.flag true) [] wake
  else if passage = .joinsItself then
    reply (c.run [.worker who .drop]).1 (.flag false) [] .nothing
  else reply c (.flag false) [] .nothing

/-- A join that has to wait waits on a thread of its own, so that its lines are background. -/
def join (c : Crew) (who : Nat) : Session × Reply :=
  match c.step (.worker who (.join (.outside 0))) with
  | none => reply c .noHandle [] .nothing
  | some (c, started) =>
    match c.step (.worker who .collect) with
    | none => reply c .blocked [] ⟨started.lines, []⟩
    | some (c, report) =>
      reply c (.ofOutcome report.outcome) (started.lines ++ report.lines) .nothing

def serve (memory : Nat) (s : Session) : Request → Session × Reply
  | .spawn mode work => spawn memory s.crew mode work
  | .release who passage => release s.crew who passage
  | .join who => join s.crew who
  | .drop who =>
    match s.crew.step (.worker who .drop) with
    | none => reply s.crew .noHandle [] .nothing
    | some (c, report) => reply c .nothing report.lines .nothing
  | .isFinished who =>
    match held? s.crew who with
    | none => reply s.crew .noHandle [] .nothing
    | some w => reply s.crew (.flag w.isFinished) [] .nothing
  | .describe who =>
    match held? s.crew who with
    | none => reply s.crew .noHandle [] .nothing
    | some w => reply s.crew (.text (s.crew.describeHandle who w)) [] .nothing
  | .info who =>
    match held? s.crew who with
    | none => reply s.crew .noHandle [] .nothing
    | some _ =>
      reply s.crew
        (.info (idOf who) (s.crew.nameOf who) (Party.outside 0 = .worker who)) [] .nothing
  | .describeCrew => reply s.crew (.text s.crew.describe) [] .nothing

def openGates (c : Crew) : List Nat → Crew × Wake
  | [] => (c, .nothing)
  | who :: rest =>
    if (c.workers[who]?.filter Worker.isWorking).isSome then
      let (c, first) := finish c who .returned
      let (c, more) := openGates c rest
      (c, ⟨first.lines ++ more.lines, first.done ++ more.done⟩)
    else openGates c rest

def finishAll (s : Session) : Session × Reply :=
  let (c, wake) := openGates s.crew (List.range s.crew.workers.length)
  reply c .nothing [] wake

def start (settings : Settings) : Except SettingsError (Session × Log.Line) :=
  (ofSettings? settings).map fun c => (⟨c⟩, creationLine settings)

end Session
end Strand.Crew
