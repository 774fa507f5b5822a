import Strand.Host.Call
import Strand.Channel.Shared
import Strand.Handle.Table
import Strand.Settings.Source
import Strand.ErrorSlot
import Strand.Error

/-! The host of a program: all that its calls can reach. The crew is made when it is first needed. A
channel stays in being when its handle is released, because callers may still wait on it. -/
namespace Strand

/-- A call in progress that has done its first part. -/
inductive Activity
  | sending (channel : Nat) (value : Int64)
  | receiving (channel : Nat)
  | receivingInto (channel : Nat) (out : Int64)
  | closing (channel : Nat)
  | askingForData (channel : Nat)
  | askingWhetherClosed (channel : Nat)
  /-- A worker is asked for and not announced yet. -/
  | launching (mode : SpawnMode) (who : Nat)
  /-- A joinable worker is announced, and its handle not stored yet. -/
  | enrolling (who : Nat)
  /-- A handle to join was found in the table and is about to be taken out. -/
  | removing (raw : UInt64)
  | joining (who : Nat)
  deriving DecidableEq, Repr

structure Host where
  source : Settings.Source
  crew : Option Crew
  /-- The workers that can be joined, by their positions in the crew. -/
  threads : Table Nat
  /-- The channels that can be reached, by their positions in `made`. -/
  channels : Table Nat
  made : List (Shared Party Int64)
  slots : ErrorSlots Party
  busy : List (Party × Activity)
  deriving Repr

/-- What one step of a call comes to: the call goes on as long as there is no reply. -/
structure Effect where
  host : Host
  lines : List Log.Line
  reply : Option Reply
  deriving Repr

/-- What is left to the system in one step: which parked caller or free slot it picks, whether it
refuses a thread that is asked for, and of how many bytes a piece of memory can be. -/
structure Chance where
  pick : Nat
  refusal : Option SystemError
  memory : Nat
  deriving Repr

namespace Host

def ofSource (source : Settings.Source) : Host :=
  ⟨source, none, .empty, .empty, [], .empty, []⟩

/-- The crew under the settings that the environment asks for, or under the defaults if those cannot
be used, and what is logged when it is made. -/
def freshCrew (source : Settings.Source) : Crew × List Log.Line :=
  let loaded := Settings.ofSource source
  match loaded.result.bind Crew.ofSettings? with
  | .ok crew => (crew, loaded.lines ++ [Crew.creationLine crew.settings])
  | .error e =>
    (Crew.ofSettings Settings.defaults,
      loaded.lines ++
        [⟨.warn, "Ignoring runtime configuration: " ++ (Error.settings e).message⟩,
          Crew.creationLine Settings.defaults])

/-- The crew, which is made if there is none yet. -/
def crewed (p : Host) : Crew × List Log.Line :=
  match p.crew with
  | some crew => (crew, [])
  | none => freshCrew p.source

/-- The call in hand is over. -/
def answer (p : Host) (who : Party) (lines : List Log.Line) (reply : Reply) : Effect :=
  ⟨{ p with busy := p.busy.filter fun entry => entry.1 ≠ who }, lines, some reply⟩

def proceed (p : Host) (who : Party) (lines : List Log.Line) (activity : Activity) : Effect :=
  ⟨{ p with busy := (who, activity) :: p.busy.filter fun entry => entry.1 ≠ who }, lines, none⟩

/-- Whether a thread can make a call: it has none in progress, and a worker is at work. -/
def isFree (p : Host) (who : Party) : Bool :=
  (p.busy.lookup who).isNone &&
    match who with
    | .outside _ => true
    | .worker k => ((p.crew.bind fun crew => crew.workers[k]?).filter Worker.isWorking).isSome

end Host
end Strand
