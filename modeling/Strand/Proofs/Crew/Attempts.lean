import Strand.Proofs.Crew.Verdicts

/-! Attempts to start a worker. Every attempt takes the next number, whether or not the system
grants it, so that no two attempts share a number or a name. To a worker that the system refuses
nothing else is ever done. -/
namespace Strand.Crew

/-- How many attempts there are among some actions. -/
def attempts (as : List Action) : Nat :=
  as.countP fun
    | .request _ => true
    | .worker _ _ => false

/-- The counter from which attempts take their numbers, after some actions: 64 bits wide, from one
on, and never set back. -/
def nextNumber (as : List Action) : UInt64 :=
  as.foldl (fun number a => match a with | .request _ => number + 1 | .worker _ _ => number) 1

/-- What the party that asks for a worker of this name is told when the system refuses it. -/
def refusalReport (name : String) (source : SystemError) : Report :=
  ⟨[⟨.warn, "Failed to spawn " ++ name ++ ": " ++ source.message⟩],
    some (.failed (.spawnFailed source))⟩

variable {settings : Settings} {history : List (Action × Report)} {c c' : Crew} {j k : Nat}
  {deed : Deed} {report : Report} {w : Worker} {name : String} {stats : CrewStats}
  {change : Change} {source : SystemError}

lemma attempts_append (as bs : List Action) : attempts (as ++ bs) = attempts as + attempts bs :=
  List.countP_append

lemma attempts_of_append {before after : List (Action × Report)} {mode : SpawnMode}
    (h : history = before ++ (.request mode, report) :: after) :
    attempts (actions before) + 1 ≤ attempts (actions history) := by
  have hactions : actions history = actions before ++ .request mode :: actions after := by
    rw [h]
    exact List.map_append
  have hrest : attempts (.request mode :: actions after) = attempts (actions after) + 1 :=
    List.countP_cons_of_pos rfl
  rw [hactions, attempts_append, hrest]
  omega

/-- As long as the counter does not wrap, it counts the attempts. -/
lemma toNat_nextNumber {as : List Action} (h : attempts as + 1 < 2 ^ 64) :
    (nextNumber as).toNat = attempts as + 1 := by
  induction as using List.reverseRecOn with
  | nil => rfl
  | append_singleton as a ih =>
    rw [attempts_append] at h ⊢
    have hbefore := ih (by omega)
    cases a with
    | request mode =>
      have hone : attempts [.request mode] = 1 := rfl
      have hnext : nextNumber (as ++ [.request mode]) = nextNumber as + 1 := List.foldl_append
      rw [hone] at h ⊢
      rw [hnext, UInt64.toNat_add, hbefore, UInt64.toNat_one]
      omega
    | worker j deed =>
      have hnext : nextNumber (as ++ [.worker j deed]) = nextNumber as := List.foldl_append
      rw [hnext]
      exact hbefore

/-- The places of workers are given in the order of the attempts. -/
lemma Run.length_workers (run : Run settings history c) :
    c.workers.length = attempts (actions history) := by
  induction run with
  | start => rfl
  | step run action taken ih =>
    rw [actions_concat, attempts_append, ← ih]
    cases action with
    | request mode =>
      cases taken
      exact List.length_append
    | worker k deed =>
      obtain ⟨w, change, -, -, hworkers, -, -⟩ := step_worker taken
      rw [hworkers, List.length_set]
      rfl

lemma nameOf_inj : c.nameOf j = c.nameOf k ↔ j = k := by
  refine ⟨fun h => ?_, fun h => h ▸ rfl⟩
  have hnumber : Nat.repr (idOf j) = Nat.repr (idOf k) := (String.append_right_inj _).mp h
  have hdigits := congrArg String.toList hnumber
  rw [Nat.toList_repr, Nat.toList_repr] at hdigits
  have hid := congrArg (fun digits => Nat.ofDigitChars 10 digits 0) hdigits
  simpa [idOf] using hid

/-- As long as the system has not answered, it can refuse. -/
lemma exists_step_refuse (hw : c.workers[k]? = some w) (requested : w.launch = .requested)
    (source : SystemError) : ∃ c', c.step (.worker k (.refuse source)) =
      some (c', refusalReport (c.nameOf k) source) := by
  simp only [step, hw, change?, requested, if_true, Option.map_some]
  exact ⟨_, rfl⟩

lemma report_refuse (h : c.step (.worker k (.refuse source)) = some (c', report)) :
    report = refusalReport (c.nameOf k) source := by
  obtain ⟨w, change, -, hchange, -, -, rfl⟩ := step_worker h
  simp only [change?] at hchange
  split at hchange <;> cases hchange
  rfl

/-- Nothing can be done to a worker that the system has refused. -/
lemma change?_of_refused (sound : w.Sound) (refused : w.launch = .refused) :
    change? k name w stats deed = none := by
  have hbody := sound.unborn.mpr (.inr refused)
  have hclaim := sound.unannounced (by simp [refused])
  cases deed <;> simp [change?, refused, hbody, hclaim]

/-- Nothing is done to a worker before the system has answered. -/
lemma answer_of_requested (sound : w.Sound) (requested : w.launch = .requested)
    (h : change? k name w stats deed = some change) :
    deed = .grant ∨ ∃ source, deed = .refuse source := by
  have hbody := sound.unborn.mpr (.inl requested)
  have hclaim := sound.unannounced (by simp [requested])
  cases deed with
  | grant => exact .inl rfl
  | refuse source => exact .inr ⟨source, rfl⟩
  | count | announce => simp [change?, requested] at h
  | begin | stop | leave => simp [change?, hbody] at h
  | join | collect | drop => simp [change?, hclaim] at h

/-- A deed that leaves a worker without a body can only be that the system refuses it. -/
lemma refuse_of_unborn (sound : w.Sound) (h : change? k name w stats deed = some change)
    (unborn : change.worker.body = .unborn) :
    w.body = .unborn ∧ ∃ source, deed = .refuse source := by
  have hmoves := bodyMoves sound h
  rw [unborn] at hmoves
  obtain ⟨hbody, haside⟩ : w.body = .unborn ∧ deed.isOfBody = false := by
    generalize w.body = body at hmoves
    cases hmoves with
    | stays aside => exact ⟨rfl, aside⟩
  refine ⟨hbody, ?_⟩
  rcases sound.unborn.mp hbody with hrequested | hrefused
  · rcases answer_of_requested sound hrequested h with rfl | hrefuse
    · cases haside
    · exact hrefuse
  · rw [change?_of_refused sound hrefused] at h
    cases h

/-- A worker that waits for the answer of the system did so before, or is asked for just now. -/
lemma requested_of_step {action : Action} (sound : ∀ w ∈ c.workers, w.Sound)
    (taken : c.step action = some (c', report))
    (requested : c'.workers[k]?.map Worker.launch = some .requested) :
    c.workers[k]?.map Worker.launch = some .requested ∧ (∀ deed, action ≠ .worker k deed) ∨
      k = c.workers.length ∧ ∃ mode, action = .request mode := by
  cases action with
  | request mode =>
    cases taken
    by_cases hk : k = c.workers.length
    · exact .inr ⟨hk, mode, rfl⟩
    · refine .inl ⟨?_, by simp⟩
      rcases Nat.lt_or_gt_of_ne hk with hlt | hgt
      · rwa [request, List.getElem?_append_left hlt] at requested
      · rw [request, List.getElem?_eq_none (by rw [List.length_append]; exact hgt)] at requested
        cases requested
  | worker j deed =>
    obtain ⟨w, change, hw, hchange, hworkers, -, -⟩ := step_worker taken
    have hlt := (List.getElem?_eq_some_iff.mp hw).1
    by_cases hj : j = k
    · subst hj
      rw [hworkers, List.getElem?_set_self hlt, Option.map_some, Option.some.injEq] at requested
      have sound := sound w (List.mem_of_getElem? hw)
      have hunborn := (booked sound hchange).sound.unborn.mpr (.inl requested)
      obtain ⟨-, source, rfl⟩ := refuse_of_unborn sound hchange hunborn
      simp only [change?] at hchange
      split at hchange <;> cases hchange
      cases requested
    · rw [hworkers, List.getElem?_set_ne hj] at requested
      exact .inl ⟨requested, by simp [hj]⟩

/-- The mode of a worker stays as it is. -/
lemma change?_mode (h : change? k name w stats deed = some change) :
    change.worker.mode = w.mode := by
  cases deed with
  | grant | refuse | count | begin | stop | leave | drop =>
    simp only [change?] at h
    split at h <;> cases h
    rfl
  | announce | join | collect =>
    simp only [change?] at h
    split at h
    · split at h <;> cases h <;> rfl
    · cases h

/-- No thread was ever made for the worker `k`. -/
def Unmade (c : Crew) (k : Nat) : Prop := ∀ w, c.workers[k]? = some w → w.body = .unborn

/-- As long as no thread is made for a worker, nothing is done to it but that the system refuses it.
-/
lemma Unmade.of_step {action : Action} (unmade : c'.Unmade k) (sound : ∀ w ∈ c.workers, w.Sound)
    (taken : c.step action = some (c', report)) :
    c.Unmade k ∧ ∀ deed, action = .worker k deed → ∃ source, deed = .refuse source := by
  refine ⟨fun w hw => ?_, fun deed haction => ?_⟩
  · rcases step_at taken hw with ⟨deed, change, -, hchange, hw'⟩ | ⟨hw', -⟩
    · have sound := sound w (List.mem_of_getElem? hw)
      exact (refuse_of_unborn sound hchange (unmade _ hw')).1
    · exact unmade w hw'
  · subst haction
    obtain ⟨w, change, hw, hchange, hworkers, -, -⟩ := step_worker taken
    have hlt := (List.getElem?_eq_some_iff.mp hw).1
    have hunborn := unmade change.worker (by rw [hworkers, List.getElem?_set_self hlt])
    exact (refuse_of_unborn (sound w (List.mem_of_getElem? hw)) hchange hunborn).2

namespace Run

lemma only_refused (run : Run settings history c) (unmade : c.Unmade k)
    (done : .worker k deed ∈ actions history) : ∃ source, deed = .refuse source := by
  induction run with
  | start => cases done
  | step run action taken ih =>
    obtain ⟨hbefore, hdeed⟩ := unmade.of_step run.ledger.sound taken
    rw [mem_actions_concat] at done
    rcases done with done | rfl
    · exact ih hbefore done
    · exact hdeed deed rfl

/-- What the system has refused stays so. -/
lemma refused_stays (run : Run settings history c)
    (refused : .worker k (.refuse source) ∈ actions history) :
    ∃ w, c.workers[k]? = some w ∧ w.launch = .refused := by
  induction run with
  | start => cases refused
  | step run action taken ih =>
    rw [mem_actions_concat] at refused
    rcases refused with refused | rfl
    · obtain ⟨w, hw, hlaunch⟩ := ih refused
      rcases step_at taken hw with ⟨deed, change, rfl, hchange, -⟩ | ⟨hw', -⟩
      · have sound := run.ledger.sound w (List.mem_of_getElem? hw)
        rw [change?_of_refused sound hlaunch] at hchange
        cases hchange
      · exact ⟨w, hw', hlaunch⟩
    · obtain ⟨w, change, hw, hchange, hworkers, -, -⟩ := step_worker taken
      have hlt := (List.getElem?_eq_some_iff.mp hw).1
      refine ⟨change.worker, by rw [hworkers, List.getElem?_set_self hlt], ?_⟩
      simp only [change?] at hchange
      split at hchange <;> cases hchange
      rfl

lemma unmade_of_refused (run : Run settings history c)
    (refused : .worker k (.refuse source) ∈ actions history) : c.Unmade k := by
  obtain ⟨w, hw, hlaunch⟩ := run.refused_stays refused
  intro v hv
  rw [hw, Option.some.injEq] at hv
  exact hv ▸ (run.ledger.sound w (List.mem_of_getElem? hw)).unborn.mpr (.inr hlaunch)

/-- The worker that an attempt asks for is there from then on, in the mode it was asked for. -/
lemma asked (run : Run settings history c) {before after : List (Action × Report)}
    {mode : SpawnMode} (h : history = before ++ (.request mode, report) :: after) :
    ∃ w, c.workers[attempts (actions before)]? = some w ∧ w.mode = mode := by
  induction run generalizing after with
  | start => simp at h
  | step run action taken ih =>
    rcases concat_eq_append_cons h with ⟨rfl, hlast, -⟩ | ⟨rest, rfl, rfl⟩
    · cases hlast
      cases taken
      rw [← run.length_workers, request, List.getElem?_concat_length]
      exact ⟨_, rfl, rfl⟩
    · obtain ⟨w, hw, hmode⟩ := ih rfl
      rcases step_at taken hw with ⟨deed, change, -, hchange, hw'⟩ | ⟨hw', -⟩
      · exact ⟨change.worker, hw', (change?_mode hchange).trans hmode⟩
      · exact ⟨w, hw', hmode⟩

end Run

end Strand.Crew
