import Strand.Host.Basic

/-! The steps of a host. A call looks its handle up, and then acts on what it has found, while other
threads may act in between. A call on a channel goes on as the turns of the channel; a join finds
its handle in one step, takes it out of the table in the next, and waits. -/
namespace Strand.Host

/-- Makes a channel of a capacity, which is raised to one if it is less. -/
def newChannel (p : Host) (who : Party) (memory : Nat) (capacity : Int64) : Effect :=
  let wanted := if capacity < 0 then 1 else capacity.toNatClampNeg
  match Channel.ofCapacity? memory wanted with
  | .error shortage =>
    p.answer who
      [⟨.warn, "tether_channel_new: capacity " ++ toString wanted ++ ": " ++ shortage.message⟩]
      (.handle noHandle)
  | .ok c =>
    match p.channels.insert p.made.length with
    | .ok (h, channels) =>
      { p with channels, made := p.made ++ [Shared.ofChannel c] }.answer who
        [(Channel.Event.created c.capacity).line] (.handle h.toRaw)
    | .error e =>
      p.answer who
        [(Channel.Event.created c.capacity).line, ⟨.warn, "tether_channel_new: " ++ e.message⟩]
        (.handle noHandle)

/-- Looks a channel up. A handle that reaches none is reported, and answered by a default. -/
def lookup (p : Host) (who : Party) (entry : String) (ch : UInt64) (default : Reply)
    (activity : Nat → Activity) : Effect :=
  match p.channels.findRaw ch with
  | .error e => p.answer who [⟨.warn, entry ++ ": " ++ e.message⟩] default
  | .ok n => p.proceed who [] (activity n)

def release (p : Host) (who : Party) (ch : UInt64) : Effect :=
  match p.channels.removeRaw ch with
  | .error e => p.answer who [⟨.warn, "tether_channel_release: " ++ e.message⟩] .nothing
  | .ok (_, channels) => { p with channels }.answer who [] .nothing

def errorOp (p : Host) (who : Party) (pick : Nat) (op : ErrorSlot.Op) : Effect :=
  let (answer, slots) := p.slots.perform who pick op
  { p with slots }.answer who []
    (match answer with
      | .code code => .code code
      | .flag b => .flag b
      | _ => .nothing)

def spawnEntry : SpawnMode → String
  | .detached => "tether_spawn"
  | .joinable => "tether_spawn_joinable"

def spawn (p : Host) (who : Party) (mode : SpawnMode) (given : Bool) : Effect :=
  if given then
    let (crew, lines) := p.crewed
    { p with crew := some (crew.request mode) }.proceed who lines
      (.launching mode crew.workers.length)
  else
    p.answer who [⟨.warn, spawnEntry mode ++ ": null work function"⟩] (.handle noHandle)

def reject (p : Host) (who : Party) (pick : Nat) (text : String) : Effect :=
  let (crew, lines) := p.crewed
  let p := { p with crew := some crew }
  let said (level : Log.Level) : List Log.Line :=
    lines ++ [⟨level, "tether_thread_join: " ++ text⟩]
  match crew.settings.invalidJoin with
  | .ignore => p.answer who (said .trace) .nothing
  | .warn => p.answer who (said .warn) .nothing
  | .setError =>
    let (_, slots) := p.slots.perform who pick (.set crew.settings.invalidJoinCode)
    { p with slots }.answer who (said .warn) .nothing

/-- Joins a thread: first its handle has to be found, and must not be the caller's own. -/
def join (p : Host) (who : Party) (pick : Nat) (h : UInt64) : Effect :=
  if h = noHandle then p.answer who [⟨.trace, "tether_thread_join: sentinel handle"⟩] .nothing
  else
    match p.threads.findRaw h with
    | .error e => p.reject who pick e.message
    | .ok k =>
      if who = .worker k then
        p.reject who pick (ThreadError.selfJoin (p.crewed.1.nameOf k)).message
      else p.proceed who [] (.removing h)

def liveCode (crew : Crew) : Int64 := Int64.ofInt (min crew.stats.live Int64.maxValue.toInt)

/-- The first step of a call. -/
def call (p : Host) (who : Party) (chance : Chance) : Call UInt64 → Effect
  | .newChannel capacity => p.newChannel who chance.memory capacity
  | .send ch value => p.lookup who "tether_channel_send" ch .nothing (.sending · value)
  | .receive ch => p.lookup who "tether_channel_receive" ch (.code 0) .receiving
  | .receiveTagged ch (some out) =>
    p.lookup who "tether_channel_receive_tagged" ch (.tagged false (some out))
      (.receivingInto · out)
  | .receiveTagged _ none =>
    p.answer who [⟨.warn, "tether_channel_receive_tagged: null output pointer"⟩]
      (.tagged false none)
  | .close ch => p.lookup who "tether_channel_close" ch .nothing .closing
  | .hasData ch => p.lookup who "tether_channel_has_data" ch (.flag false) .askingForData
  | .isClosed ch => p.lookup who "tether_channel_is_closed" ch (.flag true) .askingWhetherClosed
  | .release ch => p.release who ch
  | .setError code => p.errorOp who chance.pick (.set code)
  | .takeError => p.errorOp who chance.pick .take
  | .hasError => p.errorOp who chance.pick .isSet
  | .clearError => p.errorOp who chance.pick .clear
  | .spawn mode given => p.spawn who mode given
  | .join h => p.join who chance.pick h
  | .sleep _ => p.answer who [] .nothing
  | .liveCount =>
    let (crew, lines) := p.crewed
    { p with crew := some crew }.answer who lines (.code (liveCode crew))

/-- A turn of a caller on a channel, unless it is parked there. -/
def turn {ρ : Type} (p : Host) (who : Party) (n : Nat) (reply : ρ → Reply)
    (act : Shared Party Int64 → Turn Party ρ × Shared Party Int64) : Option Effect :=
  match p.made[n]? with
  | none => none
  | some shared =>
    if shared.parked.contains who then none
    else
      let (turn, shared) := act shared
      let p := { p with made := p.made.set n shared }
      let lines := turn.events.map Channel.Event.line
      match turn.result with
      | none => some ⟨p, lines, none⟩
      | some result => some (p.answer who lines (reply result))

def look (p : Host) (who : Party) (n : Nat) (see : Channel Int64 → Bool) : Option Effect :=
  (p.made[n]?).map fun shared => p.answer who [] (.flag (see shared.channel))

/-- The next step of a spawn, until the worker is announced or refused. -/
def launch (p : Host) (who : Party) (chance : Chance) (mode : SpawnMode) (k : Nat) :
    Option Effect :=
  match p.crew with
  | none => none
  | some crew =>
    let action? : Option Crew.Action :=
      match crew.workers[k]?.map Worker.launch with
      | some .requested =>
        match chance.refusal with
        | some source => some (.worker k (.refuse source))
        | none => some (.worker k .grant)
      | some .granted => some (.worker k .count)
      | some .counted => some (.worker k .announce)
      | _ => none
    match action?.bind crew.step with
    | none => none
    | some (crew, report) =>
      let p := { p with crew := some crew }
      match report.outcome with
      | none => some (p.proceed who report.lines (.launching mode k))
      | some (.failed e) =>
        some (p.answer who
          (report.lines ++ [⟨.warn, spawnEntry mode ++ ": " ++ (Error.thread e).message⟩])
          (.handle noHandle))
      | some _ =>
        match mode with
        | .detached =>
          some (p.answer who report.lines
            (.handle (detachedToken (UInt64.ofNat (Crew.idOf k)))))
        | .joinable => some (p.proceed who report.lines (.enrolling k))

/-- Stores the handle of a new worker. Without a place for it the handle is dropped. -/
def enroll (p : Host) (who : Party) (k : Nat) : Effect :=
  match p.threads.insert k with
  | .ok (h, threads) => { p with threads }.answer who [] (.handle h.toRaw)
  | .error e =>
    let crew := p.crew.map fun (crew : Crew) => (crew.run [.worker k .drop]).1
    { p with crew }.answer who
      [⟨.warn, "tether_spawn_joinable: " ++ e.message⟩] (.handle noHandle)

/-- What a join that was not turned away logs in the end. -/
def joinLines (report : Crew.Report) : List Log.Line :=
  report.lines ++
    match report.outcome with
    | some (.failed e) => [⟨.debug, "tether_thread_join: " ++ (Error.thread e).message⟩]
    | _ => []

/-- Takes a handle out of the table for a join. Another join may have been faster. -/
def takeOut (p : Host) (who : Party) (pick : Nat) (raw : UInt64) : Option Effect :=
  match p.threads.removeRaw raw with
  | .error e => some (p.reject who pick e.message)
  | .ok (k, threads) =>
    match p.crew.bind fun crew => crew.step (.worker k (.join who)) with
    | none => none
    | some (crew, report) =>
      let p := { p with threads, crew := some crew }
      match report.outcome with
      | none => some (p.proceed who report.lines (.joining k))
      | some _ => some (p.answer who (joinLines report) .nothing)

def collect (p : Host) (who : Party) (k : Nat) : Option Effect :=
  (p.crew.bind fun crew => crew.step (.worker k .collect)).map fun (crew, report) =>
    { p with crew := some crew }.answer who (joinLines report) .nothing

/-- The next step of an activity, unless it has to wait. -/
def continue? (p : Host) (who : Party) (chance : Chance) : Activity → Option Effect
  | .sending n value => p.turn who n (fun _ => .nothing) (·.send who value chance.pick)
  | .receiving n =>
    p.turn who n (fun value => .code (value.getD 0)) (·.receive who chance.pick)
  | .receivingInto n out =>
    p.turn who n (fun value => .tagged value.isSome (some (value.getD out)))
      (·.receive who chance.pick)
  | .closing n => p.turn who n (fun _ => .nothing) Shared.close
  | .askingForData n => p.look who n Channel.hasData
  | .askingWhetherClosed n => p.look who n Channel.closed
  | .launching mode k => p.launch who chance mode k
  | .enrolling k => some (p.enroll who k)
  | .removing raw => p.takeOut who chance.pick raw
  | .joining k => p.collect who k

inductive Action
  | call (who : Party) (c : Call UInt64)
  | resume (who : Party)
  | begin (k : Nat)
  /-- The work of a worker returns; it has no call in progress. -/
  | stop (k : Nat)
  | leave (k : Nat)
  deriving DecidableEq, Repr

/-- A step of a worker that no call asks for. -/
def crewStep (p : Host) (a : Crew.Action) : Option Effect :=
  (p.crew.bind fun crew => crew.step a).map fun (crew, report) =>
    ⟨{ p with crew := some crew }, report.lines, none⟩

/-- Takes one step, if it is enabled. A worker that leaves gives its error slot back. -/
def step (p : Host) (chance : Chance) : Action → Option Effect
  | .call who c => if p.isFree who then some (p.call who chance c) else none
  | .resume who => (p.busy.lookup who).bind (p.continue? who chance)
  | .begin k => p.crewStep (.worker k .begin)
  | .stop k => if p.isFree (.worker k) then p.crewStep (.worker k (.stop .returned)) else none
  | .leave k => { p with slots := p.slots.exit (.worker k) }.crewStep (.worker k .leave)

end Strand.Host
