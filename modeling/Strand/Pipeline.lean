import Strand.Channel.Crowd
import Strand.Crew.Basic

/-! A pipeline: consumers drain one channel to its end while producers send into it; the main thread
starts them all, joins the producers, closes the channel and joins the consumers. All take small
moves, in any order. -/
namespace Strand

/-- A value together with the position of the producer that sends it. -/
structure Parcel where
  producer : Nat
  value : Int64
  deriving DecidableEq, Repr

namespace Parcel

def leProducer (a b : Parcel) : Bool := a.producer ≤ b.producer

def le (a b : Parcel) : Bool :=
  a.producer < b.producer || (a.producer == b.producer && a.value ≤ b.value)

end Parcel

inductive Chore
  | request (jobs : List (Job Parcel))
  | act (a : Crew.Action)
  | close
  deriving Repr

/-- Worker and caller of one position are the same thread. -/
structure Pipeline where
  crew : Crew
  crowd : Crowd Parcel
  chores : List Chore
  deriving Repr

namespace Pipeline

structure Plan where
  capacity : Nat
  producers : List (List Int64)
  consumers : Nat
  deriving Repr

namespace Plan

def producerJobs (producer : Nat) (values : List Int64) : List (Job Parcel) :=
  values.map fun value => .send ⟨producer, value⟩

/-- The jobs of all workers, consumers first. -/
def jobs (p : Plan) : List (List (Job Parcel)) :=
  List.replicate p.consumers [.collect none] ++ p.producers.mapIdx producerJobs

def threads (p : Plan) : Nat := p.consumers + p.producers.length

def values (p : Plan) : Nat := p.producers.foldr (fun values n => values.length + n) 0

def launch (who : Nat) (jobs : List (Job Parcel)) : List Chore :=
  [.request jobs, .act (.worker who .grant), .act (.worker who .count),
    .act (.worker who .announce)]

def join (who : Nat) : List Chore :=
  [.act (.worker who (.join (.outside 0))), .act (.worker who .collect)]

def chores (p : Plan) : List Chore :=
  (p.jobs.mapIdx launch).flatten
    ++ (List.range' p.consumers p.producers.length).flatMap join
    ++ [.close]
    ++ (List.range p.consumers).flatMap join

/-- No run of the plan has more moves. A value is sent and received once, each of which may wake a
thread in vain; a thread is started, parked and woken by the close, ended and joined. -/
def effort (p : Plan) : Nat := 4 * p.values + 12 * p.threads + 1

end Plan

def ofPlan (p : Plan) : Pipeline :=
  ⟨Crew.ofSettings Settings.defaults, Crowd.ofChannel (Channel.ofCapacity p.capacity), p.chores⟩

/-- Whose move it is. A move on the channel may wake the parked thread at position `pick`. -/
inductive Move
  | main
  | worker (who pick : Nat)
  deriving DecidableEq, Repr

/-- The next chore of the main thread, unless it has to wait. -/
def mainMove (p : Pipeline) : Option Pipeline :=
  match p.chores with
  | [] => none
  | .request jobs :: chores => some ⟨p.crew.request .joinable, p.crowd.call jobs, chores⟩
  | .act a :: chores => (p.crew.step a).map fun (crew, _) => { p with crew, chores }
  | .close :: chores => some { p with crowd := p.crowd.close.2.1, chores }

/-- The next move of a worker: it begins, takes turns on the channel until its jobs are done, ends.
-/
def workerMove (p : Pipeline) (who pick : Nat) : Option Pipeline :=
  match p.crew.workers[who]?, p.crowd.callers[who]? with
  | some worker, some caller =>
    match worker.body with
    | .waiting => (p.crew.step (.worker who .begin)).map fun (crew, _) => { p with crew }
    | .working =>
      if caller.isFinished then
        (p.crew.step (.worker who (.stop .returned))).map fun (crew, _) => { p with crew }
      else (p.crowd.turn who pick).map fun (crowd, _) => { p with crowd }
    | .stopped _ => (p.crew.step (.worker who .leave)).map fun (crew, _) => { p with crew }
    | _ => none
  | _, _ => none

def step (p : Pipeline) : Move → Option Pipeline
  | .main => p.mainMove
  | .worker who pick => p.workerMove who pick

def isComplete (p : Pipeline) : Bool := p.chores.isEmpty

/-- The first move that is enabled, the main thread's before those of workers. -/
def next? (p : Pipeline) : Option Pipeline :=
  p.step .main <|>
    (List.range p.crew.workers.length).findSome? fun who => p.step (.worker who 0)

def run (p : Pipeline) : Nat → Pipeline
  | 0 => p
  | n + 1 =>
    match p.next? with
    | none => p
    | some p => p.run n

/-- What the consumers among the first callers have received, one after the other. -/
def collected (p : Pipeline) (consumers : Nat) : List Parcel :=
  (p.crowd.callers.take consumers).flatMap fun caller =>
    caller.answers.flatMap fun
      | .collected items => items
      | _ => []

structure Summary where
  received : List Parcel
  stats : ChannelStats
  crew : CrewStats
  deriving Repr

/-- What arrived, in an order that no schedule decides: by producer, and for a single consumer in
the order of arrival within each producer; several consumers share a producer's values in no fixed
way. -/
def arranged (consumers : Nat) (items : List Parcel) : List Parcel :=
  items.mergeSort (if consumers = 1 then Parcel.leProducer else Parcel.le)

def summary (p : Pipeline) (consumers : Nat) : Summary :=
  ⟨arranged consumers (p.collected consumers), p.crowd.shared.channel.stats, p.crew.stats⟩

def perform (p : Plan) : Summary := ((ofPlan p).run p.effort).summary p.consumers

end Pipeline
end Strand
