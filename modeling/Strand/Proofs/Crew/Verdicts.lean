import Strand.Proofs.Crew.Counters

/-! What a join tells. It waits until the body of its worker is over, and then tells how the work
has ended: nothing if it has returned, and otherwise the text of its last panic under the name of
the worker. So what it tells depends on the ending alone, and neither on the moment at which the
join began nor on what anybody else does. -/
namespace Strand.Crew

/-- What a join tells of a worker of this name whose work ends so. -/
def verdict (name : String) : Ending → Outcome
  | .returned => .joined
  | .panicked (.text message) => .failed (.panicked name message)
  | .panicked .other => .failed (.panicked name "<unknown panic>")
  | .panickedTwice (.text message) => .failed (.panicked name message)
  | .panickedTwice .other => .failed (.panicked name "<unknown panic>")

/-- All actions of a history, in order. -/
def actions (history : List (Action × Report)) : List Action := history.map Prod.fst

/-- The work of the worker `k` has ended so, and its body is over since then. -/
def Ended (history : List (Action × Report)) (k : Nat) (ending : Ending) : Prop :=
  [.worker k (.stop ending), .worker k .leave].Sublist (actions history)

variable {settings : Settings} {history : List (Action × Report)} {c c' : Crew} {k : Nat}
  {deed : Deed} {report : Report} {ending : Ending} {w : Worker}

@[simp] lemma actions_concat (action : Action) (report : Report) :
    actions (history ++ [(action, report)]) = actions history ++ [action] := List.map_append

lemma mem_actions_concat {action other : Action} : action ∈ actions (history ++ [(other, report)]) ↔
    action ∈ actions history ∨ action = other := by
  rw [actions_concat, List.mem_append, List.mem_singleton]

lemma Ended.concat (ended : Ended history k ending) (action : Action) (report : Report) :
    Ended (history ++ [(action, report)]) k ending := by
  rw [Ended, actions_concat]
  exact ended.trans (List.sublist_append_left _ _)

/-- A worker that leaves has stopped before. -/
lemma ended_concat (stopped : .worker k (.stop ending) ∈ actions history) (report : Report) :
    Ended (history ++ [(.worker k .leave, report)]) k ending := by
  rw [Ended, actions_concat]
  exact (List.singleton_sublist.mpr stopped).append (List.Sublist.refl [Action.worker k .leave])

lemma collectReport_eq (name : String) (ending : Ending) :
    (collectReport name ending).outcome = some (verdict name ending) := by
  match ending with
  | .returned | .panicked (.text _) | .panicked .other | .panickedTwice (.text _)
  | .panickedTwice .other => rfl

lemma verdict_eq_joined_iff {name : String} :
    verdict name ending = .joined ↔ ending = .returned := by
  match ending with
  | .returned | .panicked (.text _) | .panicked .other | .panickedTwice (.text _)
  | .panickedTwice .other => simp [verdict]

/-- What a history says of the work of the worker `k`, which has come so far. -/
structure WorkTold (history : List (Action × Report)) (k : Nat) (body : Body) : Prop where
  stopped_iff : ∀ ending, .worker k (.stop ending) ∈ actions history ↔
    body = .stopped ending ∨ body = .over ending
  left : .worker k .leave ∈ actions history → ∃ ending, body = .over ending
  ended : ∀ ending, body = .over ending → Ended history k ending

/-- What a history says of the handle of the worker `k`, of which so much has become. -/
structure HandleTold (history : List (Action × Report)) (k : Nat) (claim : Claim) : Prop where
  /-- Only another party waits for the worker. -/
  joining : claim = .joining →
    ∃ caller, caller ≠ .worker k ∧ .worker k (.join caller) ∈ actions history
  collected : .worker k .collect ∈ actions history → claim = .spent
  itself : .worker k (.join (.worker k)) ∈ actions history →
    claim = .spent ∧ .worker k .collect ∉ actions history

lemma WorkTold.acted {body next : Body} (told : WorkTold history k body)
    (moves : BodyMoves body deed next) (report : Report) :
    WorkTold (history ++ [(.worker k deed, report)]) k next := by
  refine ⟨fun ending => ?_, fun hleave => ?_, fun ending hover => ?_⟩
  · rw [mem_actions_concat, told.stopped_iff]
    cases moves with
    | born | begins | leaves => simp
    | stops e => simp [eq_comm]
    | stays aside =>
      refine or_iff_left ?_
      rintro ⟨⟩
      cases aside
  · rw [mem_actions_concat] at hleave
    cases moves with
    | leaves ending => exact ⟨ending, rfl⟩
    | born | begins | stops =>
      obtain ⟨ending, hbody⟩ := told.left (hleave.resolve_right (by simp))
      cases hbody
    | stays aside =>
      refine told.left (hleave.resolve_right ?_)
      rintro ⟨⟩
      cases aside
  · subst hover
    cases moves with
    | leaves => exact ended_concat ((told.stopped_iff ending).mpr (.inl rfl)) report
    | stays => exact (told.ended ending rfl).concat _ report

lemma HandleTold.acted {claim next : Claim} (told : HandleTold history k claim)
    (moves : ClaimMoves k claim deed next) (report : Report) :
    HandleTold (history ++ [(.worker k deed, report)]) k next := by
  obtain ⟨joining, collected, itself⟩ := told
  constructor <;> simp only [mem_actions_concat]
  · intro hjoining
    subst hjoining
    cases moves with
    | @waits caller hother => exact ⟨caller, hother, .inr rfl⟩
    | stays =>
      obtain ⟨caller, hother, hmem⟩ := joining rfl
      exact ⟨caller, hother, .inl hmem⟩
  · intro hcollect
    cases moves with
    | itself | collects | drops => rfl
    | comes | waits => cases collected (hcollect.resolve_right (by simp))
    | stays aside =>
      refine collected (hcollect.resolve_right ?_)
      rintro ⟨⟩
      cases aside
  · intro hitself
    cases moves with
    | itself => exact ⟨rfl, by simpa using fun hmem => nomatch collected hmem⟩
    | comes | collects | drops => cases (itself (hitself.resolve_right (by simp))).1
    | waits hother =>
      cases (itself (hitself.resolve_right (by simpa using Ne.symm hother))).1
    | stays aside =>
      have hkept := itself (hitself.resolve_right (by rintro ⟨⟩; cases aside))
      refine ⟨hkept.1, not_or.mpr ⟨hkept.2, ?_⟩⟩
      rintro ⟨⟩
      cases aside

/-- What the history of a crew says of one of its workers. -/
structure Chronicle (history : List (Action × Report)) (k : Nat) (w : Worker) : Prop where
  work : WorkTold history k w.body
  handle : HandleTold history k w.claim

namespace Chronicle

lemma requested (unknown : ∀ deed, .worker k deed ∉ actions history) (mode : SpawnMode) :
    Chronicle history k ⟨mode, .requested, .unborn, .none⟩ where
  work := ⟨fun _ => iff_of_false (unknown _) (by simp), (absurd · (unknown _)), by simp⟩
  handle := ⟨by simp, (absurd · (unknown _)), (absurd · (unknown _))⟩

/-- What is not done to the worker itself does not change its story. -/
lemma other (chronicle : Chronicle history k w) {action : Action}
    (aside : ∀ deed, action ≠ .worker k deed) (report : Report) :
    Chronicle (history ++ [(action, report)]) k w := by
  have hmem : ∀ deed, .worker k deed ∈ actions (history ++ [(action, report)]) ↔
      .worker k deed ∈ actions history := fun deed => by
    rw [mem_actions_concat, or_iff_left (aside deed).symm]
  obtain ⟨work, handle⟩ := chronicle
  constructor
  · exact ⟨by simpa only [hmem] using work.stopped_iff, by simpa only [hmem] using work.left,
      fun ending hover => (work.ended ending hover).concat action report⟩
  · exact ⟨by simpa only [hmem] using handle.joining, by simpa only [hmem] using handle.collected,
      by simpa only [hmem] using handle.itself⟩

lemma acted (chronicle : Chronicle history k w) {name : String} {stats : CrewStats}
    {change : Change} (sound : w.Sound) (h : change? k name w stats deed = some change)
    (report : Report) : Chronicle (history ++ [(.worker k deed, report)]) k change.worker where
  work := chronicle.work.acted (bodyMoves sound h) report
  handle := chronicle.handle.acted (claimMoves sound h) report

/-- A worker is over once the history tells how its work has ended. -/
lemma over_iff (chronicle : Chronicle history k w) :
    w.body = .over ending ↔ Ended history k ending := by
  refine ⟨chronicle.work.ended ending, fun ended => ?_⟩
  obtain ⟨final, hover⟩ := chronicle.work.left (ended.subset (by simp))
  have hstopped := (chronicle.work.stopped_iff ending).mp (ended.subset (by simp))
  rw [hover] at hstopped ⊢
  simpa using hstopped

end Chronicle

/-- The history of a crew tells the story of each of its workers, and of nobody else. -/
structure Chronicled (history : List (Action × Report)) (c : Crew) : Prop where
  known : ∀ k deed, .worker k deed ∈ actions history → k < c.workers.length
  chronicle : ∀ k w, c.workers[k]? = some w → Chronicle history k w

namespace Chronicled

lemma request (chronicled : Chronicled history c) (mode : SpawnMode) :
    Chronicled (history ++ [(.request mode, .quiet)]) (c.request mode) := by
  have hknown : ∀ k deed, .worker k deed ∈ actions (history ++ [(.request mode, .quiet)]) →
      k < c.workers.length := by
    intro k deed hmem
    rw [mem_actions_concat] at hmem
    exact chronicled.known k deed (hmem.resolve_right (by simp))
  refine ⟨fun k deed hmem => ?_, fun k w hw => ?_⟩
  · have := hknown k deed hmem
    rw [Crew.request, List.length_append]
    omega
  · rw [Crew.request] at hw
    rcases Nat.lt_or_ge k c.workers.length with hlt | hge
    · rw [List.getElem?_append_left hlt] at hw
      exact (chronicled.chronicle k w hw).other (by simp) _
    · rw [List.getElem?_append_right hge] at hw
      rw [List.mem_singleton.mp (List.mem_of_getElem? hw)]
      exact .requested (fun deed hmem => absurd (hknown k deed hmem) (Nat.not_lt.mpr hge)) mode

lemma work (chronicled : Chronicled history c) (sound : ∀ w ∈ c.workers, w.Sound)
    (hstep : c.step (.worker k deed) = some (c', report)) :
    Chronicled (history ++ [(.worker k deed, report)]) c' := by
  obtain ⟨w, change, hw, hchange, hworkers, -, -⟩ := step_worker hstep
  have hlt := (List.getElem?_eq_some_iff.mp hw).1
  refine ⟨fun j other hmem => ?_, fun j v hv => ?_⟩
  · rw [hworkers, List.length_set]
    rw [mem_actions_concat] at hmem
    rcases hmem with hmem | heq
    · exact chronicled.known j other hmem
    · cases heq
      exact hlt
  · rw [hworkers] at hv
    by_cases hj : k = j
    · subst hj
      rw [List.getElem?_set_self hlt, Option.some.injEq] at hv
      subst hv
      exact (chronicled.chronicle k w hw).acted (sound w (List.mem_of_getElem? hw)) hchange _
    · rw [List.getElem?_set_ne hj] at hv
      exact (chronicled.chronicle j v hv).other (by simp [hj]) _

end Chronicled

theorem Run.chronicled (run : Run settings history c) : Chronicled history c := by
  induction run with
  | start => exact ⟨fun _ _ h => (List.not_mem_nil h).elim, fun _ _ h => by simp [ofSettings] at h⟩
  | step run action taken ih =>
    cases action with
    | request mode =>
      cases taken
      exact ih.request mode
    | worker k deed => exact ih.work run.ledger.sound taken

/-- What was done at a moment of a run was possible there. -/
lemma Run.taken_at (run : Run settings history c) {before after : List (Action × Report)}
    {action : Action} (h : history = before ++ (action, report) :: after) :
    ∃ earlier next, Run settings before earlier ∧ earlier.step action = some (next, report) := by
  induction run generalizing after with
  | start => simp at h
  | step run _ taken ih =>
    rcases concat_eq_append_cons h with ⟨rfl, hlast, -⟩ | ⟨rest, rfl, rfl⟩
    · cases hlast
      exact ⟨_, _, run, taken⟩
    · exact ih rfl

/-- A worker has the same name in all crews under the same settings. -/
lemma Run.nameOf_eq (run : Run settings history c) (k : Nat) :
    c.nameOf k = (ofSettings settings).nameOf k := by
  rw [nameOf, nameOf, run.settings_eq]
  rfl

lemma Run.stop_unique (run : Run settings history c) {other : Ending}
    (stopped : .worker k (.stop ending) ∈ actions history)
    (hother : .worker k (.stop other) ∈ actions history) : ending = other := by
  have hlt := run.chronicled.known k _ stopped
  have work := (run.chronicled.chronicle k _ (List.getElem?_eq_getElem hlt)).work
  rw [work.stopped_iff] at stopped hother
  rcases stopped with h | h <;> rw [h] at hother <;> simpa using hother

/-- A join that comes back has waited for the end of the body, and reports how the work ended. -/
lemma Run.collected (run : Run settings history c) {next : Crew}
    (taken : c.step (.worker k .collect) = some (next, report)) :
    ∃ ending caller, Ended history k ending ∧ caller ≠ .worker k ∧
      .worker k (.join caller) ∈ actions history ∧
      report = collectReport ((ofSettings settings).nameOf k) ending := by
  obtain ⟨w, change, hw, hchange, -, -, rfl⟩ := step_worker taken
  have chronicle := run.chronicled.chronicle k w hw
  rw [run.nameOf_eq] at hchange
  simp only [change?] at hchange
  split at hchange
  next hclaim =>
    split at hchange <;> cases hchange
    next ending hover =>
    obtain ⟨caller, hother, hjoin⟩ := chronicle.handle.joining hclaim
    exact ⟨ending, caller, chronicle.work.ended ending hover, hother, hjoin, rfl⟩
  · cases hchange

/-- Every report to a joining party is the one for the ending of the work. -/
lemma Run.reported (run : Run settings history c)
    (collected : (.worker k .collect, report) ∈ history) :
    ∃ ending, .worker k (.stop ending) ∈ actions history ∧
      report = collectReport ((ofSettings settings).nameOf k) ending := by
  obtain ⟨before, after, hhistory⟩ := List.append_of_mem collected
  obtain ⟨earlier, next, hearlier, taken⟩ := run.taken_at hhistory
  obtain ⟨ending, -, ended, -, -, hreport⟩ := hearlier.collected taken
  refine ⟨ending, ?_, hreport⟩
  rw [hhistory, actions, List.map_append]
  exact List.mem_append_left _ (ended.subset (by simp))

lemma Run.report_eq (run : Run settings history c)
    (collected : (.worker k .collect, report) ∈ history)
    (stopped : .worker k (.stop ending) ∈ actions history) :
    report = collectReport ((ofSettings settings).nameOf k) ending := by
  obtain ⟨final, hfinal, hreport⟩ := run.reported collected
  rw [hreport, run.stop_unique stopped hfinal]

lemma step_join_self (hw : c.workers[k]? = some w) (held : w.claim = .held) :
    c.step (.worker k (.join (.worker k))) =
      some ({ c with workers := c.workers.set k { w with claim := .spent } },
        .yields (.failed (.selfJoin (c.nameOf k)))) := by
  simp only [step, hw, change?, held, if_true, Option.map_some]

/-- What joins come to in a crew after a history. -/
structure JoinsTell (settings : Settings) (history : List (Action × Report)) (c : Crew) : Prop where
  /-- A join of another party can begin at any time, and tells nothing yet. -/
  begins : ∀ k w caller, c.workers[k]? = some w → w.claim = .held → caller ≠ .worker k →
    ∃ c' report, c.step (.worker k (.join caller)) = some (c', report) ∧ report.outcome = none ∧
      c'.workers[k]? = some { w with claim := .joining }
  /-- It comes back as soon as the body is over, and never before. -/
  waits : ∀ k w, c.workers[k]? = some w → w.claim = .joining →
    ((c.step (.worker k .collect)).isSome ↔ ∃ ending, Ended history k ending)
  tells : ∀ before after k report, history = before ++ (.worker k .collect, report) :: after →
    ∃ ending caller, Ended before k ending ∧ caller ≠ .worker k ∧
      .worker k (.join caller) ∈ actions before ∧
      report.outcome = some (verdict (settings.namePrefix ++ "-" ++ toString (k + 1)) ending)
  joined_iff : ∀ k report, (.worker k .collect, report) ∈ history →
    (report.outcome = some .joined ↔ .worker k (.stop .returned) ∈ actions history)
  /-- A join of a worker with itself fails at once and leaves the counters as they are. -/
  itself : ∀ k w, c.workers[k]? = some w → w.claim = .held →
    ∃ c', c.step (.worker k (.join (.worker k))) = some (c', .yields (.failed
        (.selfJoin (settings.namePrefix ++ "-" ++ toString (k + 1))))) ∧
      c'.stats = c.stats ∧ c'.workers = c.workers.set k { w with claim := .spent }
  itself_told : ∀ k report, (.worker k (.join (.worker k)), report) ∈ history →
    report = .yields (.failed (.selfJoin (settings.namePrefix ++ "-" ++ toString (k + 1)))) ∧
      .worker k .collect ∉ actions history
  /-- Joins tell the same in any two runs in which the work of the worker ends in the same way. -/
  same : ∀ other d k ending report report', Run settings other d →
    .worker k (.stop ending) ∈ actions history → .worker k (.stop ending) ∈ actions other →
    (.worker k .collect, report) ∈ history → (.worker k .collect, report') ∈ other →
    report = report'

/-- Whatever all parties do in whatever order, a join of another party waits for the end of the body
and tells how the work has ended, and nothing else. -/
theorem Run.joins_tell_ending (run : Run settings history c) : JoinsTell settings history c where
  begins k w caller hw held hother := by
    have hlt := (List.getElem?_eq_some_iff.mp hw).1
    simp only [Crew.step, hw, change?, held, if_true, if_neg hother, Option.map_some]
    exact ⟨_, _, rfl, rfl, List.getElem?_set_self hlt⟩
  waits k w hw joining := by
    have chronicle := run.chronicled.chronicle k w hw
    constructor
    · intro hsome
      obtain ⟨⟨next, report⟩, taken⟩ := Option.isSome_iff_exists.mp hsome
      obtain ⟨ending, -, ended, -⟩ := run.collected taken
      exact ⟨ending, ended⟩
    · rintro ⟨ending, ended⟩
      have hover := chronicle.over_iff.mpr ended
      simp [Crew.step, hw, change?, joining, hover]
  tells before after k report hhistory := by
    obtain ⟨earlier, next, hearlier, taken⟩ := run.taken_at hhistory
    obtain ⟨ending, caller, ended, hother, hjoin, rfl⟩ := hearlier.collected taken
    exact ⟨ending, caller, ended, hother, hjoin, collectReport_eq _ ending⟩
  joined_iff k report collected := by
    obtain ⟨ending, stopped, hreport⟩ := run.reported collected
    rw [hreport, collectReport_eq, Option.some.injEq, verdict_eq_joined_iff]
    constructor
    · rintro rfl
      exact stopped
    · exact run.stop_unique stopped
  itself k w hw held := by
    have hstep := step_join_self hw held
    rw [run.nameOf_eq] at hstep
    exact ⟨_, hstep, rfl, rfl⟩
  itself_told k report hmem := by
    obtain ⟨before, after, hhistory⟩ := List.append_of_mem hmem
    obtain ⟨earlier, next, hearlier, taken⟩ := run.taken_at hhistory
    obtain ⟨w, change, -, hchange, -, -, rfl⟩ := step_worker taken
    have hjoin : .worker k (.join (.worker k)) ∈ actions history :=
      List.mem_map_of_mem hmem
    have hlt := run.chronicled.known k _ hjoin
    have chronicle := run.chronicled.chronicle k _ (List.getElem?_eq_getElem hlt)
    refine ⟨?_, (chronicle.handle.itself hjoin).2⟩
    rw [hearlier.nameOf_eq] at hchange
    simp only [change?, if_true] at hchange
    split at hchange <;> cases hchange
    rfl
  same other d k ending report report' hother stopped stopped' collected collected' :=
    (run.report_eq collected stopped).trans (hother.report_eq collected' stopped').symm

/-- A join begins before its worker has panicked and another one after; a third worker panics twice,
and a fourth one tries to join itself at work. -/
theorem early_and_late_joins : ∃ history c, Run .defaults history c ∧
    JoinsTell .defaults history c ∧
    history.filterMap (fun entry => entry.2.outcome) = [.spawned 0,
      .failed (.panicked "tether-worker-1" "early"), .spawned 1,
      .failed (.panicked "tether-worker-2" "<unknown panic>"), .spawned 2,
      .failed (.panicked "tether-worker-3" "second"), .spawned 3,
      .failed (.selfJoin "tether-worker-4")] := by
  have waiting : Run .defaults _ _ := ((((((Run.start.step (.request .joinable) rfl).step
    (.worker 0 .grant) rfl).step (.worker 0 .count) rfl).step (.worker 0 .announce) rfl).step
    (.worker 0 .begin) rfl).step (.worker 0 (.join (.outside 0))) rfl)
  have early := ((waiting.step (.worker 0 (.stop (.panicked (.text "early")))) rfl).step
    (.worker 0 .leave) rfl).step (.worker 0 .collect) rfl
  have stopped := ((((((early.step (.request .joinable) rfl).step (.worker 1 .grant) rfl).step
    (.worker 1 .count) rfl).step (.worker 1 .announce) rfl).step (.worker 1 .begin) rfl).step
    (.worker 1 (.stop (.panicked .other))) rfl).step (.worker 1 .leave) rfl
  have late := (stopped.step (.worker 1 (.join (.worker 0))) rfl).step (.worker 1 .collect) rfl
  have twice := ((((((late.step (.request .joinable) rfl).step (.worker 2 .grant) rfl).step
    (.worker 2 .count) rfl).step (.worker 2 .announce) rfl).step (.worker 2 .begin) rfl).step
    (.worker 2 (.stop (.panickedTwice (.text "second")))) rfl).step (.worker 2 .leave) rfl
  have second := (twice.step (.worker 2 (.join (.outside 0))) rfl).step (.worker 2 .collect) rfl
  have last := (((((second.step (.request .joinable) rfl).step (.worker 3 .grant) rfl).step
    (.worker 3 .count) rfl).step (.worker 3 .announce) rfl).step (.worker 3 .begin) rfl).step
    (.worker 3 (.join (.worker 3))) rfl
  exact ⟨_, _, last, last.joins_tell_ending, rfl⟩

end Strand.Crew
