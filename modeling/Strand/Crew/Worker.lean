/-! One worker of a crew: how its work can end, and how far the party that spawns it, the worker
itself and the party that joins it have come, each on their own. -/
namespace Strand

inductive SpawnMode
  | detached
  | joinable
  deriving DecidableEq, Repr

inductive Payload
  | text (s : String)
  | other
  deriving DecidableEq, Repr

def Payload.message : Payload → String
  | .text s => s
  | .other => "<unknown panic>"

inductive Ending
  | returned
  | panicked (payload : Payload)
  /-- The work panics, and what that panic carries, which is no text, panics once more when it is
  dropped. -/
  | panickedTwice (second : Payload)
  deriving DecidableEq, Repr

/-- What the work's first panic says, if it panics at all. -/
def Ending.panic? : Ending → Option String
  | .returned => none
  | .panicked payload => some payload.message
  | .panickedTwice _ => some Payload.other.message

/-- What a join has to say about an ending: nothing, or the text of the last panic. -/
def Ending.fault? : Ending → Option String
  | .returned => none
  | .panicked payload => some payload.message
  | .panickedTwice second => some second.message

/-- Who acts: a thread from outside the crew, or the worker at a position. -/
inductive Party
  | outside (n : Nat)
  | worker (who : Nat)
  deriving DecidableEq, Repr

inductive Launch
  | requested
  | refused
  | granted
  | counted
  | announced
  deriving DecidableEq, Repr

/-- How far the worker itself has come. Its body is over once it counts as live no more. -/
inductive Body
  | unborn
  | waiting
  | working
  | stopped (ending : Ending)
  | over (ending : Ending)
  deriving DecidableEq, Repr

/-- What has become of the handle by which a worker can be joined. -/
inductive Claim
  | none
  | held
  | joining
  /-- Joined, dropped, or spent on a join of the worker with itself. -/
  | spent
  deriving DecidableEq, Repr

structure Worker where
  mode : SpawnMode
  launch : Launch
  body : Body
  claim : Claim
  deriving DecidableEq, Repr

def Worker.isWorking (w : Worker) : Bool := w.body == .working

def Worker.isFinished (w : Worker) : Bool :=
  match w.body with
  | .over _ => true
  | _ => false

end Strand
