import Strand.Channel.Crowd

/-! A conversation with one channel. Each request is followed by as many turns as it takes until
every caller is finished or parked. -/
namespace Strand.Channel

inductive Request (α : Type)
  | call (job : Job α)
  | close
  | hasData
  | isClosed
  | isEmpty
  | len
  | capacity
  | describe
  deriving Repr

inductive Outcome (α : Type)
  | answer (a : Answer α)
  | blocked
  | flag (b : Bool)
  | number (n : Nat)
  | text (s : String)
  deriving Repr

structure Reply (α : Type) where
  outcome : Outcome α
  stats : ChannelStats
  /-- The answers of callers that were blocked before the request and no longer are. -/
  done : List (Answer α)
  events : List Event
  deriving Repr

inductive Making
  /-- The buffer is taken for granted. -/
  | plain
  /-- A buffer that cannot be had is reported. -/
  | checked
  deriving DecidableEq, Repr

structure Session (α : Type) where
  crowd : Crowd α
  deriving Repr

namespace Session
variable {α : Type}

def start (memory : Nat) (making : Making) (capacity : Nat) : Option (Session α × Event) :=
  let channel : Option (Channel α) :=
    match making with
    | .plain => some (ofCapacity capacity)
    | .checked => (ofCapacity? memory capacity).toOption
  channel.map fun c => (⟨Crowd.ofChannel c⟩, .created c.capacity)

def stats (s : Session α) : ChannelStats := s.crowd.shared.channel.stats

/-- The answers of the callers among the first `n` that were unfinished before and have finished. -/
def newAnswers (before after : Crowd α) (n : Nat) : List (Answer α) :=
  (List.range n).flatMap fun who =>
    match before.callers[who]?, after.callers[who]? with
    | some old, some new =>
      if !old.isFinished && new.isFinished then new.answers.drop old.answers.length else []
    | _, _ => []

private def settled (before : Crowd α) (changed : Crowd α) (events : List Event)
    (outcome : Crowd α → Outcome α) : Session α × Reply α :=
  let (after, more) := changed.settle
  (⟨after⟩,
    { outcome := outcome after
      stats := after.shared.channel.stats
      done := newAnswers before after before.callers.length
      events := events ++ more })

/-- Serves one request and lets everything settle. -/
def serve (s : Session α) : Request α → Session α × Reply α
  | .call job =>
    let who := s.crowd.callers.length
    settled s.crowd (s.crowd.call [job]) [] fun after =>
      match after.callers[who]?.bind fun caller => caller.answers.head? with
      | some a => .answer a
      | none => .blocked
  | .close =>
    let (changed, crowd, events) := s.crowd.close
    settled s.crowd crowd events fun _ => .flag changed
  | .hasData => settled s.crowd s.crowd [] fun c => .flag c.shared.channel.hasData
  | .isClosed => settled s.crowd s.crowd [] fun c => .flag c.shared.channel.closed
  | .isEmpty => settled s.crowd s.crowd [] fun c => .flag c.shared.channel.isEmpty
  | .len => settled s.crowd s.crowd [] fun c => .number c.shared.channel.len
  | .capacity => settled s.crowd s.crowd [] fun c => .number c.shared.channel.capacity
  | .describe => settled s.crowd s.crowd [] fun c => .text c.shared.channel.describe

end Session
end Strand.Channel
