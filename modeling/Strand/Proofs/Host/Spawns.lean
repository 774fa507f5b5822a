import Strand.Proofs.Crew.Without
import Strand.Proofs.Host.Crewed
import Strand.Proofs.Host.Routing

/-! What the entry points make of attempts to start a worker. A call that has asked for a worker
takes no other step before the system answers. If the answer is a refusal the call is over, and no
step of it has touched the table of threads. -/
namespace Strand.Host

/-- The thread whose call takes a step. -/
def Action.caller? : Action → Option Party
  | .call who _ | .resume who => some who
  | .begin _ | .stop _ | .leave _ => none

/-- The call of `who` has asked for the worker `k`, and the system has not answered yet. -/
structure Asking (p : Host) (who : Party) (mode : SpawnMode) (k : Nat) : Prop where
  launching : p.busy.lookup who = some (.launching mode k)
  requested : p.crewed.1.workers[k]?.map Worker.launch = some .requested

variable {source : Settings.Source} {trace : List Moment} {p p' q : Host} {who : Party}
  {mode : SpawnMode} {k : Nat} {chance : Chance} {action : Action} {effect : Effect}
  {a : Activity} {reason : SystemError} {lines : List Log.Line}

lemma lookup_answer {reply : Reply} : (q.answer who lines reply).host.busy.lookup who = none := by
  rw [answer, lookup_filter_ne, if_pos rfl]

lemma lookup_proceed : (q.proceed who lines a).host.busy.lookup who = some a :=
  List.lookup_cons_self

/-- No quiet step asks for a worker. -/
lemma Quiet.launching (quiet : Quiet p who p')
    (h : p'.busy.lookup who = some (.launching mode k)) :
    p.busy.lookup who = some (.launching mode k) := by
  rcases quiet.busy with hsame | ⟨more, hmore, hplain⟩
  · rw [← hsame, h]
  · rw [hmore, lookup_busyAfter, if_pos rfl] at h
    cases hplain _ h

/-- The only first step after which a worker is asked for is that of a spawn with some work. -/
lemma spawn_of_launching (idle : p.busy.lookup who = none) {c : Call UInt64}
    (h : (p.call who chance c).host.busy.lookup who = some (.launching mode k)) :
    c = .spawn mode true ∧ k = p.crewed.1.workers.length := by
  have hloud : ∀ {p'}, Quiet p who p' → p'.busy.lookup who ≠ some (.launching mode k) :=
    fun quiet h => by
      rw [quiet.launching h] at idle
      cases idle
  cases c with
  | spawn mode given =>
    cases given with
    | true =>
      cases lookup_proceed.symm.trans h
      exact ⟨rfl, rfl⟩
    | false => cases lookup_answer.symm.trans h
  | join raw =>
    simp only [call, join] at h
    split at h
    · cases lookup_answer.symm.trans h
    · split at h
      · exact absurd h (hloud (quiet_reject p who _ _))
      · split at h
        · exact absurd h (hloud (quiet_reject p who _ _))
        · cases lookup_proceed.symm.trans h
  | _ => exact absurd h (hloud (quiet_call p who chance (by simp) (by simp)))

/-- A call that goes on and has a worker to launch afterwards has just had its answer. -/
lemma deed_of_launching (found : p.busy.lookup who = some a)
    (h : p.continue? who chance a = some effect)
    (launching : effect.host.busy.lookup who = some (.launching mode k)) :
    ∃ deed report, p.crewed.1.step (.worker k deed) = some (effect.host.crewed.1, report) := by
  cases a with
  | launching mode' j =>
    cases launch_cases h with
    | goesOn hcrew hstep =>
      cases lookup_proceed.symm.trans launching
      rw [crewed_of_crew hcrew, crewed_of_crew rfl]
      exact ⟨_, _, hstep⟩
    | fails | tells => cases lookup_answer.symm.trans launching
    | hands => cases lookup_proceed.symm.trans launching
  | enrolling j =>
    cases h
    simp only [enroll] at launching
    split at launching <;> cases lookup_answer.symm.trans launching
  | removing raw =>
    simp only [continue?, takeOut] at h
    split at h
    · cases h
      cases found.symm.trans ((quiet_reject p who _ _).launching launching)
    · split at h
      · cases h
      · split at h <;> cases h
        · cases lookup_proceed.symm.trans launching
        · cases lookup_answer.symm.trans launching
  | joining j =>
    obtain ⟨⟨crew, report⟩, -, rfl⟩ := Option.map_eq_some_iff.mp h
    cases lookup_answer.symm.trans launching
  | sending | receiving | receivingInto | closing | askingForData | askingWhetherClosed =>
    cases found.symm.trans ((quiet_continue rfl h).launching launching)

/-- A worker that the system has not answered for is asked for in this step, or was before and its
caller does not take the step. -/
theorem Asking.before (asking : Asking effect.host who mode k) (run : Run source trace p)
    (taken : p.step chance action = some effect) :
    action = .call who (.spawn mode true) ∧ p.crewed.1.workers.length = k ∨
      Asking p who mode k ∧ action.caller? ≠ some who := by
  obtain ⟨-, history, crewRun⟩ := run.crewed
  have sound := crewRun.ledger.sound
  by_cases hcaller : action.caller? = some who
  · left
    cases action with
    | call other c =>
      cases hcaller
      simp only [step, Option.ite_none_right_eq_some, Option.some.injEq] at taken
      obtain ⟨free, rfl⟩ := taken
      obtain ⟨rfl, hk⟩ := spawn_of_launching (lookup_of_free free) asking.launching
      exact ⟨rfl, hk.symm⟩
    | resume other =>
      cases hcaller
      obtain ⟨a, found, hcontinue⟩ := Option.bind_eq_some_iff.mp taken
      obtain ⟨deed, report, hstep⟩ := deed_of_launching found hcontinue asking.launching
      rcases Crew.requested_of_step sound hstep asking.requested with ⟨-, hother⟩ | ⟨-, _, h⟩
      · exact absurd rfl (hother deed)
      · cases h
    | begin | stop | leave => cases hcaller
  · refine .inr ⟨?_, hcaller⟩
    have moves := step_moves taken
    have launching : p.busy.lookup who = some (.launching mode k) := by
      rcases moves.busy with hsame | ⟨hcall, hothers⟩
      · rw [← hsame, asking.launching]
      · rw [← hothers who, asking.launching]
        rintro rfl
        cases action with
        | call | resume => exact hcaller rfl
        | begin | stop | leave => cases hcall
    refine ⟨launching, ?_⟩
    have hknown : k ≠ p.crewed.1.workers.length := by
      rintro rfl
      have hstake := (run.claims.fits who _ (mem_of_lookup launching)).1
      rw [← p.stake?_crewed, Crew.stake?_length] at hstake
      cases hstake
    rcases moves.crew with hsame | ⟨act, report, hstep, -⟩
    · rw [← hsame, asking.requested]
    · rcases Crew.requested_of_step sound hstep asking.requested with ⟨h, -⟩ | ⟨h, -⟩
      · exact h
      · exact absurd h hknown

/-- As long as the system has not answered, the last that the caller did was to ask. -/
theorem Run.asked (run : Run source trace p) (asking : Asking p who mode k) :
    ∃ before m after, trace = before ++ m :: after ∧ m.action = .call who (.spawn mode true) ∧
      m.before.crewed.1.workers.length = k ∧
      ∀ later ∈ after, later.action.caller? ≠ some who := by
  induction run with
  | start => cases asking.launching
  | @step trace p effect run chance action taken ih =>
    rcases asking.before run taken with ⟨haction, hk⟩ | ⟨hbefore, hcaller⟩
    · exact ⟨trace, _, [], rfl, haction, hk, fun _ h => absurd h List.not_mem_nil⟩
    · obtain ⟨before, m, after, rfl, haction, hk, hlater⟩ := ih hbefore
      refine ⟨before, m, after ++ [⟨p, chance, action, effect⟩], by simp, haction, hk, ?_⟩
      intro later hmem
      rcases List.mem_append.mp hmem with hmem | hmem
      · exact hlater later hmem
      · rw [List.mem_singleton.mp hmem]
        exact hcaller

/-- A refusal ends the call with "none". -/
lemma Asking.exists_refused (asking : Asking p who mode k)
    (refusal : chance.refusal = some reason) :
    ∃ effect, p.step chance (.resume who) = some effect ∧ effect.reply = some (.handle noHandle) ∧
      effect.host.threads = p.threads ∧
      p.crewed.1.step (.worker k (.refuse reason)) =
        some (effect.host.crewed.1, Crew.refusalReport (p.crewed.1.nameOf k) reason) ∧
      effect.lines = (Crew.refusalReport (p.crewed.1.nameOf k) reason).lines ++
        [⟨.warn, spawnEntry mode ++ ": " ++ (Error.thread (.spawnFailed reason)).message⟩] := by
  obtain ⟨w, hw, hlaunch⟩ := Option.map_eq_some_iff.mp asking.requested
  obtain ⟨crew, hcrew, hcw⟩ := Option.bind_eq_some_iff.mp ((p.workers_crewed k).trans hw)
  obtain ⟨crew', hstep⟩ := Crew.exists_step_refuse hcw hlaunch reason
  have houtcome := Crew.outcome_refuse hstep
  rw [crewed_of_crew hcrew, step_resume asking.launching]
  simp only [continue?, launch, hcrew, hcw, Option.map_some, hlaunch, refusal, Option.bind_some,
    hstep, houtcome]
  exact ⟨_, rfl, rfl, rfl, rfl, rfl⟩

/-- What the spawns of the threads come to in a host after the steps of `trace`. -/
structure Spawns (source : Settings.Source) (trace : List Moment) (p : Host) : Prop where
  crew : ∃ history, Crew.Run (Settings.configured source) history p.crewed.1
  /-- The first step asks for a worker, and leaves the table of threads as it is. -/
  asks : ∀ who chance mode, p.isFree who = true →
    ∃ effect, p.step chance (.call who (.spawn mode true)) = some effect ∧ effect.reply = none ∧
      effect.host.threads = p.threads ∧ effect.host.crewed.1 = p.crewed.1.request mode ∧
      Asking effect.host who mode p.crewed.1.workers.length
  /-- No other step of the call follows before the system answers. -/
  asked : ∀ who mode k, Asking p who mode k →
    ∃ before m after, trace = before ++ m :: after ∧ m.action = .call who (.spawn mode true) ∧
      m.before.crewed.1.workers.length = k ∧ ∀ later ∈ after, later.action.caller? ≠ some who
  /-- If the answer is a refusal, the call is over at once, and the table is as it was. -/
  refused : ∀ who mode k chance reason, Asking p who mode k → chance.refusal = some reason →
    ∃ effect, p.step chance (.resume who) = some effect ∧ effect.reply = some (.handle noHandle) ∧
      effect.host.threads = p.threads ∧
      p.crewed.1.step (.worker k (.refuse reason)) =
        some (effect.host.crewed.1, Crew.refusalReport (p.crewed.1.nameOf k) reason) ∧
      effect.lines = (Crew.refusalReport (p.crewed.1.nameOf k) reason).lines ++
        [⟨.warn, spawnEntry mode ++ ": " ++ (Error.thread (.spawnFailed reason)).message⟩]

theorem Run.spawns (run : Run source trace p) : Spawns source trace p where
  crew := run.crewed.2
  asks who chance mode free := by
    rw [Host.step, if_pos free]
    refine ⟨_, rfl, rfl, rfl, rfl, lookup_proceed, ?_⟩
    change (p.crewed.1.request mode).workers[p.crewed.1.workers.length]?.map _ = _
    rw [Crew.request, List.getElem?_concat_length]
    rfl
  asked who mode k asking := run.asked asking
  refused who mode k chance reason asking refusal := asking.exists_refused refusal

/-- Whatever the parties of a crew do, every attempt takes the next number, and one that the system
refuses leaves nothing else behind; and whatever the threads of a program call, a spawn that is
refused gives no handle out. -/
theorem attempts_take_next_number :
    (∀ settings history c, Crew.Run settings history c →
      Crew.attempts (Crew.actions history) < 2 ^ 64 → Crew.Attempted settings history c) ∧
    ∀ source trace p, Run source trace p → Spawns source trace p :=
  ⟨fun _ _ _ run few => run.attempted few, fun _ _ _ run => run.spawns⟩

/-- The system refuses the second of three attempts, while the first worker is at work. -/
theorem refused_attempt_keeps_number :
    (∃ history c, Crew.Run .defaults history c ∧
      Crew.attempts (Crew.actions history) < 2 ^ 64 ∧ Crew.Attempted .defaults history c ∧
      history.filterMap (fun entry => entry.2.outcome) =
        [.spawned 0, .failed (.spawnFailed .tryAgain), .spawned 2] ∧
      c.nameOf 2 = "tether-worker-3" ∧ c.stats = ⟨2, 1, 1, 0, 0, 2⟩) ∧
    ∃ trace p, Run ⟨⟨[], []⟩, none⟩ trace p ∧ Spawns ⟨⟨[], []⟩, none⟩ trace p ∧
      Asking p (.outside 0) .detached 1 ∧ p.threads.size = 1 ∧
      ∃ effect, p.step ⟨0, some .tryAgain, 1024⟩ (.resume (.outside 0)) = some effect ∧
        effect.reply = some (.handle 0) ∧ effect.host.threads.size = 1 := by
  have first : Crew.Run .defaults _ _ := ((((Crew.Run.start.step (.request .joinable) rfl).step
    (.worker 0 .grant) rfl).step (.worker 0 .count) rfl).step (.worker 0 .announce) rfl).step
    (.worker 0 .begin) rfl
  have others := ((((first.step (.request .detached) rfl).step (.request .detached) rfl).step
    (.worker 2 .grant) rfl).step (.worker 1 (.refuse .tryAgain)) rfl)
  have last := (others.step (.worker 2 .count) rfl).step (.worker 2 .announce) rfl
  let calm : Chance := ⟨0, none, 1024⟩
  have fresh : Run ⟨⟨[], []⟩, none⟩ [] _ := .start
  have handed := ((((fresh.step calm (.call (.outside 0) (.spawn .joinable true)) rfl).step calm
    (.resume (.outside 0)) rfl).step calm (.resume (.outside 0)) rfl).step calm
    (.resume (.outside 0)) rfl).step calm (.resume (.outside 0)) rfl
  have waiting := (handed.step calm (.call (.outside 0) (.spawn .detached true)) rfl).step calm
    (.begin 0) rfl
  have spawns := attempts_take_next_number.2 _ _ _ waiting
  obtain ⟨effect, hstep, hreply, hthreads, -⟩ := spawns.refused (.outside 0) .detached 1
    ⟨0, some .tryAgain, 1024⟩ .tryAgain ⟨by decide, by decide⟩ rfl
  exact ⟨⟨_, _, last, by decide, attempts_take_next_number.1 _ _ _ last (by decide), by decide,
    by decide, by decide⟩, _, _, waiting, spawns, ⟨by decide, by decide⟩, by decide, effect,
    hstep, hreply, congrArg Table.size hthreads⟩

end Strand.Host
