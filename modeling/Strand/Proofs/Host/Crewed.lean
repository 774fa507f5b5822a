import Strand.Host.Program
import Strand.Proofs.Crew.Counters
import Strand.Proofs.Host.Handover
import Strand.Proofs.Settings.Layers

/-! What a step of a host does to its crew and to the error codes. A host makes its crew under the
configured settings when it first needs one, and from then on a step of the host is at most one
action of the crew; so the crew goes through a run of its own. The codes change by an operation of
the thread that takes the step, and by the end of a thread. -/
namespace Strand

namespace Host

/-- The thread that takes a step. -/
def Action.who : Action → Party
  | .call who _ | .resume who => who
  | .begin k | .stop k | .leave k => .worker k

/-- What a step asks of the error code of its thread. -/
def Action.op? : Action → Option ErrorSlot.Op
  | .call _ (.setError code) => some (.set code)
  | .call _ .takeError => some .take
  | .call _ .hasError => some .isSet
  | .call _ .clearError => some .clear
  | _ => none

variable {p q : Host} {chance : Chance} {action : Action} {effect : Effect}
  {lines : List Log.Line} {reply : Reply} {a : Activity}

/-- The crew is made under the settings that are in force, whichever way they were found. -/
lemma freshCrew_eq (source : Settings.Source) :
    (freshCrew source).1 = .ofSettings (Settings.configured source) := by
  simp only [freshCrew, Settings.configured]
  cases hresult : (Settings.ofSource source).result with
  | error e => rfl
  | ok s =>
    have hvalid : s.validated = .ok s :=
      Settings.validated_eq_ok_iff.mpr ⟨rfl, Settings.isValid_of_ofSource hresult⟩
    simp only [Except.bind, Crew.ofSettings?, hvalid]
    rfl

lemma crewed_of_crew {crew : Crew} (h : p.crew = some crew) : p.crewed.1 = crew := by
  simp only [crewed, h]

/-- A crew that is not made yet has no workers. -/
lemma workers_crewed (p : Host) (k : Nat) :
    (p.crew.bind fun crew => crew.workers[k]?) = p.crewed.1.workers[k]? := by
  rw [crewed]
  cases p.crew with
  | some crew => rfl
  | none =>
    rw [workers_freshCrew]
    rfl

/-- The crew takes at most one action, and no work of a worker ends but in a step for this. -/
def CrewMoves (action : Action) (c c' : Crew) : Prop :=
  c' = c ∨ ∃ act report, c.step act = some (c', report) ∧
    ∀ k ending, act = .worker k (.stop ending) → action = .stop k

/-- The codes stay, or the thread that takes the step uses its own or has a join turned away, or
ends. -/
inductive SlotMoves (p : Host) (action : Action) : ErrorSlots Party → Prop
  | stays : SlotMoves p action p.slots
  | uses {op : ErrorSlot.Op} (asks : action.op? = some op) (pick : Nat) :
      SlotMoves p action (p.slots.perform action.who pick op).2
  | signals (inCall : Machine.ofCall action = true)
      (policy : p.crewed.1.settings.invalidJoin = .setError) (pick : Nat) :
      SlotMoves p action
        (p.slots.perform action.who pick (.set p.crewed.1.settings.invalidJoinCode)).2
  | ends {k : Nat} (leaves : action = .leave k) : SlotMoves p action (p.slots.exit (.worker k))

/-- A body that is at work or over stays so, unless its own thread ends the work. -/
lemma CrewMoves.steady {c c' : Crew} (moves : CrewMoves action c c')
    (sound : ∀ w ∈ c.workers, w.Sound) {k : Nat} {w : Worker} (hw : c.workers[k]? = some w)
    (hbody : w.body = .working ∧ action ≠ .stop k ∨ ∃ ending, w.body = .over ending) :
    ∃ w', c'.workers[k]? = some w' ∧ w'.body = w.body := by
  rcases moves with rfl | ⟨act, report, hstep, hstop⟩
  · exact ⟨w, hw, rfl⟩
  obtain ⟨w', hw', ⟨deed, rfl, hmoves⟩ | ⟨hsame, -⟩⟩ := Crew.step_body sound hstep hw
  swap
  · exact ⟨w', hw', congrArg Worker.body hsame⟩
  refine ⟨w', hw', ?_⟩
  generalize w'.body = after at hmoves ⊢
  rcases hbody with ⟨hworking, haction⟩ | ⟨ending, hover⟩
  · rw [hworking] at hmoves ⊢
    cases hmoves with
    | stops ending => exact absurd (hstop k ending rfl) haction
    | stays => rfl
  · rw [hover] at hmoves ⊢
    cases hmoves
    rfl

/-- What every step does to the crew, to the codes and to the calls in progress. -/
structure Moves (p : Host) (action : Action) (p' : Host) : Prop where
  source : p'.source = p.source
  crew : CrewMoves action p.crewed.1 p'.crewed.1
  slots : SlotMoves p action p'.slots
  busy : p'.busy = p.busy ∨ Machine.ofCall action = true ∧
    ∀ other ≠ action.who, p'.busy.lookup other = p.busy.lookup other

section
variable (inCall : Machine.ofCall action = true) (source : q.source = p.source)
  (crew : CrewMoves action p.crewed.1 q.crewed.1) (slots : SlotMoves p action q.slots)
  (busy : q.busy = p.busy)
include inCall source crew slots busy

lemma moves_answer : Moves p action (q.answer action.who lines reply).host where
  source := source
  crew := crew
  slots := slots
  busy := by
    refine .inr ⟨inCall, fun other hother => ?_⟩
    change (q.busyAfter action.who none).lookup other = _
    rw [lookup_busyAfter, if_neg hother, busy]

lemma moves_proceed : Moves p action (q.proceed action.who lines a).host where
  source := source
  crew := crew
  slots := slots
  busy := by
    refine .inr ⟨inCall, fun other hother => ?_⟩
    change (q.busyAfter action.who (some a)).lookup other = _
    rw [lookup_busyAfter, if_neg hother, busy]

end

lemma moves_reject (inCall : Machine.ofCall action = true) (p : Host) (pick : Nat)
    (text : String) : Moves p action (p.reject action.who pick text).host := by
  simp only [reject]
  cases hpolicy : p.crewed.1.settings.invalidJoin with
  | ignore | warn => exact moves_answer inCall rfl (.inl rfl) .stays rfl
  | setError => exact moves_answer inCall rfl (.inl rfl) (.signals inCall hpolicy pick) rfl

lemma moves_errorOp {op : ErrorSlot.Op} (inCall : Machine.ofCall action = true)
    (asks : action.op? = some op) (p : Host) (pick : Nat) :
    Moves p action (p.errorOp action.who pick op).host :=
  moves_answer inCall rfl (.inl rfl) (.uses asks pick) rfl

lemma moves_lookup (inCall : Machine.ofCall action = true) (p : Host) (entry : String)
    (ch : UInt64) (default : Reply) (activity : Nat → Activity) :
    Moves p action (p.lookup action.who entry ch default activity).host := by
  simp only [lookup]
  split
  · exact moves_answer inCall rfl (.inl rfl) .stays rfl
  · exact moves_proceed inCall rfl (.inl rfl) .stays rfl

/-- The first step of a call. -/
theorem moves_call (p : Host) (who : Party) (chance : Chance) (c : Call UInt64) :
    Moves p (.call who c) (p.call who chance c).host := by
  cases c with
  | newChannel capacity =>
    simp only [call, newChannel]
    split
    · exact moves_answer rfl rfl (.inl rfl) .stays rfl
    · split
      · exact moves_answer rfl rfl (.inl rfl) .stays rfl
      · exact moves_answer rfl rfl (.inl rfl) .stays rfl
  | send | receive | close | hasData | isClosed => exact moves_lookup rfl p _ _ _ _
  | receiveTagged ch out =>
    cases out with
    | none => exact moves_answer rfl rfl (.inl rfl) .stays rfl
    | some out => exact moves_lookup rfl p _ _ _ _
  | release ch =>
    simp only [call, release]
    split
    · exact moves_answer rfl rfl (.inl rfl) .stays rfl
    · exact moves_answer rfl rfl (.inl rfl) .stays rfl
  | setError | takeError | hasError | clearError =>
    exact moves_errorOp rfl rfl p chance.pick
  | spawn mode given =>
    cases given with
    | false => exact moves_answer rfl rfl (.inl rfl) .stays rfl
    | true =>
      apply moves_proceed
      · rfl
      · rfl
      · exact .inr ⟨.request mode, .quiet, rfl, fun k ending h => by cases h⟩
      · exact .stays
      · rfl
  | join h =>
    simp only [call, join]
    split
    · exact moves_answer rfl rfl (.inl rfl) .stays rfl
    · split
      · exact moves_reject rfl p chance.pick _
      · split
        · exact moves_reject rfl p chance.pick _
        · exact moves_proceed rfl rfl (.inl rfl) .stays rfl
  | sleep => exact moves_answer rfl rfl (.inl rfl) .stays rfl
  | liveCount => exact moves_answer rfl rfl (.inl rfl) .stays rfl

lemma moves_turn {ρ : Type} {who : Party} {n : Nat} {reply : ρ → Reply}
    {act : Shared Party Int64 → Turn Party ρ × Shared Party Int64}
    (h : p.turn who n reply act = some effect) :
    Moves p (.resume who) effect.host := by
  simp only [turn] at h
  split at h
  · cases h
  · split at h
    · cases h
    · split at h <;> cases h
      · exact ⟨rfl, .inl rfl, .stays, .inl rfl⟩
      · exact moves_answer rfl rfl (.inl rfl) .stays rfl

lemma moves_look {who : Party} {n : Nat} {see : Channel Int64 → Bool}
    (h : p.look who n see = some effect) : Moves p (.resume who) effect.host := by
  obtain ⟨shared, -, rfl⟩ := Option.map_eq_some_iff.mp h
  exact moves_answer rfl rfl (.inl rfl) .stays rfl

lemma crewMoves_of_step {crew crew' : Crew} {k : Nat} {deed : Crew.Deed} {report : Crew.Report}
    (hcrew : p.crew = some crew) (hstep : crew.step (.worker k deed) = some (crew', report))
    (hdeed : ∀ ending, deed = .stop ending → action = .stop k) (hcrew' : q.crew = some crew') :
    CrewMoves action p.crewed.1 q.crewed.1 := by
  rw [crewed_of_crew hcrew, crewed_of_crew hcrew']
  refine .inr ⟨_, report, hstep, fun j ending h => ?_⟩
  cases h
  exact hdeed ending rfl

/-- The next step of a call in progress. -/
theorem moves_continue {who : Party} (h : p.continue? who chance a = some effect) :
    Moves p (.resume who) effect.host := by
  cases a with
  | sending | receiving | receivingInto => exact moves_turn h
  | closing =>
    simp only [continue?] at h
    exact moves_turn h
  | askingForData | askingWhetherClosed => exact moves_look h
  | launching mode k =>
    cases launch_cases h with
    | goesOn hcrew hstep _ working =>
      exact moves_proceed rfl rfl
        (crewMoves_of_step hcrew hstep (fun e h => absurd h (working e)) rfl) .stays rfl
    | fails hcrew hstep _ working =>
      exact moves_answer rfl rfl
        (crewMoves_of_step hcrew hstep (fun e h => absurd h (working e)) rfl) .stays rfl
    | tells _ hcrew hstep =>
      exact moves_answer rfl rfl (crewMoves_of_step hcrew hstep (by simp) rfl) .stays rfl
    | hands _ hcrew hstep =>
      exact moves_proceed rfl rfl (crewMoves_of_step hcrew hstep (by simp) rfl) .stays rfl
  | enrolling k =>
    cases h
    simp only [enroll]
    split
    · exact moves_answer rfl rfl (.inl rfl) .stays rfl
    · refine moves_answer rfl rfl ?_ .stays rfl
      cases hcrew : p.crew with
      | none => exact .inl (by simp only [crewed, hcrew, Option.map_none])
      | some crew =>
        cases hstep : crew.step (.worker k .drop) with
        | none => exact .inl (by simp only [crewed, hcrew, Option.map_some, Crew.run, hstep])
        | some result =>
          refine crewMoves_of_step hcrew hstep (by simp) ?_
          simp only [Option.map_some, Crew.run, hstep]
  | removing raw =>
    simp only [continue?, takeOut] at h
    split at h
    · cases h
      exact moves_reject rfl p chance.pick _
    · split at h
      · cases h
      next crew' report hbind =>
        obtain ⟨crew, hcrew, hstep⟩ := Option.bind_eq_some_iff.mp hbind
        split at h <;> cases h
        · exact moves_proceed rfl rfl (crewMoves_of_step hcrew hstep (by simp) rfl) .stays rfl
        · exact moves_answer rfl rfl (crewMoves_of_step hcrew hstep (by simp) rfl) .stays rfl
  | joining k =>
    obtain ⟨⟨crew', report⟩, hbind, rfl⟩ := Option.map_eq_some_iff.mp h
    obtain ⟨crew, hcrew, hstep⟩ := Option.bind_eq_some_iff.mp hbind
    exact moves_answer rfl rfl (crewMoves_of_step hcrew hstep (by simp) rfl) .stays rfl

lemma moves_crewStep {k : Nat} {deed : Crew.Deed} {slots : ErrorSlots Party}
    (hslots : SlotMoves p action slots)
    (hdeed : ∀ ending, deed = .stop ending → action = .stop k)
    (h : { p with slots }.crewStep (.worker k deed) = some effect) :
    Moves p action effect.host := by
  obtain ⟨⟨crew', report⟩, hbind, rfl⟩ := Option.map_eq_some_iff.mp h
  obtain ⟨crew, hcrew, hstep⟩ := Option.bind_eq_some_iff.mp hbind
  exact ⟨rfl, crewMoves_of_step hcrew hstep hdeed rfl, hslots, .inl rfl⟩

theorem step_moves (taken : p.step chance action = some effect) : Moves p action effect.host := by
  cases action with
  | call who c =>
    simp only [step, Option.ite_none_right_eq_some, Option.some.injEq] at taken
    obtain ⟨-, rfl⟩ := taken
    exact moves_call p who chance c
  | resume who =>
    obtain ⟨a, -, hcontinue⟩ := Option.bind_eq_some_iff.mp taken
    exact moves_continue hcontinue
  | begin k => exact moves_crewStep .stays (by simp) taken
  | stop k =>
    simp only [step, Option.ite_none_right_eq_some] at taken
    exact moves_crewStep .stays (by simp) taken.2
  | leave k => exact moves_crewStep (.ends rfl) (by simp) taken

/-- The crew of a host, if one has been made, has gone through a run under the settings in force. -/
theorem Run.crewed {source : Settings.Source} {trace : List Moment} (run : Run source trace p) :
    p.source = source ∧ ∃ history, Crew.Run (Settings.configured source) history p.crewed.1 := by
  induction run with
  | start =>
    refine ⟨rfl, [], ?_⟩
    change Crew.Run _ _ (freshCrew source).1
    rw [freshCrew_eq]
    exact .start
  | step run chance action taken ih =>
    obtain ⟨hsource, history, crewRun⟩ := ih
    have moves := step_moves taken
    refine ⟨moves.source.trans hsource, ?_⟩
    rcases moves.crew with hsame | ⟨act, report, hstep, -⟩
    · exact ⟨history, hsame ▸ crewRun⟩
    · exact ⟨_, crewRun.step act hstep⟩

/-- Whatever the environment says, a join that is turned away goes by the settings in force. -/
lemma Run.settings_crewed {source : Settings.Source} {trace : List Moment}
    (run : Run source trace p) : p.crewed.1.settings = Settings.configured source := by
  obtain ⟨-, history, crewRun⟩ := run.crewed
  exact crewRun.settings_eq

end Host
end Strand
