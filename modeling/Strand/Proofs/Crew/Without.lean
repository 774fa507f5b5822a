import Strand.Proofs.Crew.Attempts

/-! An attempt that the system refuses leaves nothing behind but its number. For every run with such
an attempt there is the run without it, in which all others do the same, and both come to the same
counters. -/
namespace Strand

/-- The place that the worker `j` has in a crew to which the worker `k` was never added. -/
def placeWithout (k j : Nat) : Nat := if j < k then j else j - 1

lemma placeWithout_inj {k i j : Nat} (hi : i ≠ k) (hj : j ≠ k) :
    placeWithout k i = placeWithout k j ↔ i = j := by
  unfold placeWithout
  split <;> split <;> omega

/-- A party in a crew to which the worker `k` was never added; that worker itself is an outsider. -/
def Party.without (k : Nat) : Party → Party
  | .outside n => .outside n
  | .worker j => if j = k then .outside 0 else .worker (placeWithout k j)

lemma Party.without_eq_worker_iff {k j : Nat} (hj : j ≠ k) (party : Party) :
    party.without k = .worker (placeWithout k j) ↔ party = .worker j := by
  cases party with
  | outside n => simp [Party.without]
  | worker i =>
    by_cases hi : i = k
    · simp [Party.without, hi, Ne.symm hj]
    · simp [Party.without, hi, placeWithout_inj hi hj]

namespace Crew

def Deed.without (k : Nat) : Deed → Deed
  | .join caller => .join (caller.without k)
  | deed => deed

/-- An action in a crew to which the worker `k` was never added, where `seen` attempts were made
before. What belongs to the attempt for this worker is left out. -/
def Action.without? (k seen : Nat) : Action → Option Action
  | .request mode => if seen = k then none else some (.request mode)
  | .worker j deed => if j = k then none else some (.worker (placeWithout k j) (deed.without k))

def withoutFrom (k : Nat) : Nat → List Action → List Action
  | _, [] => []
  | seen, a :: as => (a.without? k seen).toList ++ withoutFrom k (seen + attempts [a]) as

/-- Actions without all that belongs to the attempt that was made after `k` others. -/
def without (k : Nat) (as : List Action) : List Action := withoutFrom k 0 as

variable {settings : Settings} {history : List (Action × Report)} {c c' d : Crew} {k j : Nat}
  {deed : Deed} {report : Report} {w : Worker} {name : String} {stats : CrewStats}
  {change : Change} {source : SystemError}

lemma withoutFrom_append (k seen : Nat) (as bs : List Action) : withoutFrom k seen (as ++ bs) =
    withoutFrom k seen as ++ withoutFrom k (seen + attempts as) bs := by
  induction as generalizing seen with
  | nil => rfl
  | cons a as ih =>
    have hcount : seen + attempts (a :: as) = seen + attempts [a] + attempts as := by
      rw [← List.singleton_append, attempts_append, Nat.add_assoc]
    rw [List.cons_append, withoutFrom, withoutFrom, ih, List.append_assoc, hcount]

lemma without_concat (k : Nat) (as : List Action) (a : Action) :
    without k (as ++ [a]) = without k as ++ (a.without? k (attempts as)).toList := by
  rw [without, withoutFrom_append, without, Nat.zero_add]
  congr 1
  exact List.append_nil _

/-- A deed does the same to a worker at another place, under another name, while another count of
live workers stands. -/
lemma change?_without (hj : j ≠ k) (h : change? j name w stats deed = some change) (other : String)
    (rest : Int) : ∃ report,
      change? (placeWithout k j) other w { stats with live := stats.live - rest }
          (deed.without k) =
        some ⟨change.worker, { change.stats with live := change.stats.live - rest }, report⟩ := by
  cases deed with
  | grant | count | begin | stop | drop =>
    simp only [change?] at h
    split at h <;> cases h
    next hready => exact ⟨_, by simp only [Deed.without, change?, if_pos hready]; rfl⟩
  | refuse source =>
    simp only [change?] at h
    split at h <;> cases h
    next hready =>
      have hlive : stats.live - rest - 1 = stats.live - 1 - rest := by omega
      exact ⟨_, by simp only [Deed.without, change?, if_pos hready, hlive]; rfl⟩
  | announce =>
    simp only [change?] at h
    split at h
    next hready =>
      cases hmode : w.mode <;> simp only [hmode] at h <;> cases h <;>
        exact ⟨_, by simp only [Deed.without, change?, if_pos hready, hmode]; rfl⟩
    · cases h
  | leave =>
    simp only [change?] at h
    split at h <;> cases h
    next ending hbody =>
      have hlive : stats.live - rest - 1 = stats.live - 1 - rest := by omega
      exact ⟨_, by simp only [Deed.without, change?, hbody, hlive]; rfl⟩
  | join caller =>
    simp only [change?] at h
    split at h
    next hready =>
      by_cases hcaller : caller = .worker j
      · rw [if_pos hcaller] at h
        cases h
        have hself := (Party.without_eq_worker_iff hj caller).mpr hcaller
        exact ⟨_, by simp only [Deed.without, change?, if_pos hready, if_pos hself]; rfl⟩
      · rw [if_neg hcaller] at h
        cases h
        have hother := mt (Party.without_eq_worker_iff hj caller).mp hcaller
        exact ⟨_, by simp only [Deed.without, change?, if_pos hready, if_neg hother]; rfl⟩
    · cases h
  | collect =>
    simp only [change?] at h
    split at h
    next hready =>
      split at h <;> cases h
      next ending hbody =>
        exact ⟨_, by simp only [Deed.without, change?, if_pos hready, hbody]; rfl⟩
    · cases h

/-- The live workers that are there only because the system has not answered the attempt for the
worker `k` yet. -/
def pending (c : Crew) (k : Nat) : Int :=
  if c.workers[k]?.map Worker.launch = some .requested then 1 else 0

/-- The crew `d` is `c` without the attempt for the worker `k`. -/
structure Lacks (k : Nat) (c d : Crew) : Prop where
  workers : d.workers = c.workers.eraseIdx k
  stats : d.stats = { c.stats with live := c.stats.live - c.pending k }

namespace Lacks

lemma ofSettings (settings : Settings) (k : Nat) :
    Lacks k (Crew.ofSettings settings) (Crew.ofSettings settings) :=
  ⟨rfl, rfl⟩

/-- Another attempt. -/
lemma request (lacks : Lacks k c d) (hk : k ≠ c.workers.length) (mode : SpawnMode) :
    Lacks k (c.request mode) (d.request mode) := by
  have hpending : (c.request mode).pending k = c.pending k := by
    rcases Nat.lt_or_gt_of_ne hk with hlt | hgt
    · rw [pending, pending, Crew.request, List.getElem?_append_left hlt]
    · rw [pending, pending, Crew.request, List.getElem?_eq_none (Nat.le_of_lt hgt),
        List.getElem?_eq_none (by rw [List.length_append]; exact hgt)]
  refine ⟨?_, ?_⟩
  · rcases Nat.lt_or_gt_of_ne hk with hlt | hgt
    · rw [Crew.request, Crew.request, lacks.workers, List.eraseIdx_append_of_lt_length hlt]
    · rw [Crew.request, Crew.request, lacks.workers,
        List.eraseIdx_of_length_le (Nat.le_of_lt hgt),
        List.eraseIdx_of_length_le (by rw [List.length_append]; exact hgt)]
  · rw [hpending, Crew.request, Crew.request, lacks.stats, CrewStats.mk.injEq]
    refine ⟨rfl, rfl, rfl, rfl, rfl, ?_⟩
    dsimp only
    omega

/-- The attempt itself. -/
lemma requested (lacks : Lacks k c d) (hk : k = c.workers.length) (mode : SpawnMode) :
    Lacks k (c.request mode) d := by
  subst hk
  have hnone : c.pending c.workers.length = 0 := by
    rw [pending, List.getElem?_eq_none (Nat.le_refl _)]
    rfl
  have hone : (c.request mode).pending c.workers.length = 1 := by
    rw [pending, Crew.request, List.getElem?_concat_length]
    rfl
  refine ⟨?_, ?_⟩
  · rw [lacks.workers, Crew.request, List.eraseIdx_of_length_le (Nat.le_refl _),
      List.eraseIdx_append_of_length_le (Nat.le_refl _), Nat.sub_self]
    exact (List.append_nil _).symm
  · rw [lacks.stats, hnone, hone, Crew.request, CrewStats.mk.injEq]
    refine ⟨rfl, rfl, rfl, rfl, rfl, ?_⟩
    dsimp only
    omega

/-- A deed of another worker. -/
lemma work (lacks : Lacks k c d) (hj : j ≠ k)
    (hstep : c.step (.worker j deed) = some (c', report)) :
    ∃ d' report', d.step (.worker (placeWithout k j) (deed.without k)) = some (d', report') ∧
      Lacks k c' d' := by
  obtain ⟨w, change, hw, hchange, hworkers, hstats, -⟩ := step_worker hstep
  obtain ⟨report', hchange'⟩ :=
    change?_without hj hchange (d.nameOf (placeWithout k j)) (c.pending k)
  rw [← lacks.stats] at hchange'
  have hplace : d.workers[placeWithout k j]? = some w := by
    rw [lacks.workers, placeWithout]
    rcases Nat.lt_or_gt_of_ne hj with hlt | hgt
    · rw [if_pos hlt, List.getElem?_eraseIdx_of_lt hlt, hw]
    · have hback : j - 1 + 1 = j := by omega
      rw [if_neg (Nat.not_lt.mpr (Nat.le_of_lt hgt)),
        List.getElem?_eraseIdx_of_ge (Nat.le_sub_one_of_lt hgt), hback, hw]
  have hpending : c'.pending k = c.pending k := by
    rw [pending, pending, hworkers, List.getElem?_set_ne hj]
  refine ⟨{ d with
      workers := d.workers.set (placeWithout k j) change.worker
      stats := { change.stats with live := change.stats.live - c.pending k } }, report', ?_, ?_, ?_⟩
  · simp only [step, hplace, hchange', Option.map_some]
  · rw [hworkers, lacks.workers, placeWithout]
    rcases Nat.lt_or_gt_of_ne hj with hlt | hgt
    · rw [if_pos hlt, List.eraseIdx_set_gt hlt]
    · rw [if_neg (Nat.not_lt.mpr (Nat.le_of_lt hgt)), List.eraseIdx_set_lt hgt]
  · rw [hpending, hstats]

/-- The refusal of the attempt itself. -/
lemma refused (lacks : Lacks k c d)
    (hstep : c.step (.worker k (.refuse source)) = some (c', report)) : Lacks k c' d := by
  obtain ⟨w, change, hw, hchange, hworkers, hstats, -⟩ := step_worker hstep
  have hlt := (List.getElem?_eq_some_iff.mp hw).1
  simp only [change?] at hchange
  split at hchange <;> cases hchange
  next hrequested =>
  have hone : c.pending k = 1 := by
    rw [pending, hw, Option.map_some, hrequested]
    rfl
  have hnone : c'.pending k = 0 := by
    rw [pending, hworkers, List.getElem?_set_self hlt]
    rfl
  refine ⟨?_, ?_⟩
  · rw [lacks.workers, hworkers, List.eraseIdx_set_eq]
  · rw [lacks.stats, hone, hnone, hstats, Int.sub_zero]

/-- Without the attempt, an action that belongs to it is no action, and any other is one. -/
theorem step {action : Action} (lacks : Lacks k c d) (sound : ∀ w ∈ c.workers, w.Sound)
    (unmade : c'.Unmade k) (taken : c.step action = some (c', report)) :
    action.without? k c.workers.length = none ∧ Lacks k c' d ∨
      ∃ act d' report', action.without? k c.workers.length = some act ∧
        d.step act = some (d', report') ∧ Lacks k c' d' := by
  cases action with
  | request mode =>
    cases taken
    by_cases hk : c.workers.length = k
    · exact .inl ⟨if_pos hk, lacks.requested hk.symm mode⟩
    · exact .inr ⟨_, _, _, if_neg hk, rfl, lacks.request (Ne.symm hk) mode⟩
  | worker j deed =>
    by_cases hj : j = k
    · subst hj
      obtain ⟨source, rfl⟩ := (unmade.of_step sound taken).2 deed rfl
      exact .inl ⟨if_pos rfl, lacks.refused taken⟩
    · obtain ⟨d', report', hstep, hlacks⟩ := lacks.work hj taken
      exact .inr ⟨_, d', report', if_neg hj, hstep, hlacks⟩

end Lacks

/-- The attempt for a worker without a thread can be left out of the run. -/
theorem Run.exists_without (run : Run settings history c) (unmade : c.Unmade k) :
    ∃ history' d, Run settings history' d ∧ actions history' = without k (actions history) ∧
      Lacks k c d := by
  induction run with
  | start => exact ⟨[], _, .start, rfl, .ofSettings settings k⟩
  | step run action taken ih =>
    obtain ⟨history', d, hrun, hactions, lacks⟩ := ih (unmade.of_step run.ledger.sound taken).1
    rw [actions_concat, without_concat, ← run.length_workers, ← hactions]
    rcases lacks.step run.ledger.sound unmade taken with ⟨hnone, hlacks⟩ |
        ⟨act, d', report', hsome, hstep, hlacks⟩
    · rw [hnone]
      exact ⟨history', d, hrun, (List.append_nil _).symm, hlacks⟩
    · rw [hsome]
      exact ⟨_, d', hrun.step act hstep, actions_concat act report', hlacks⟩

/-- What the attempts of a run come to, as long as their numbers have 64 bits. -/
structure Attempted (settings : Settings) (history : List (Action × Report)) (c : Crew) : Prop where
  /-- Whatever has become of others before, an attempt takes the next number, from one on; its
  worker is named by this number. -/
  numbered : ∀ before mode report after k,
    history = before ++ (.request mode, report) :: after → attempts (actions before) = k →
      (∃ w, c.workers[k]? = some w ∧ w.mode = mode) ∧
      (nextNumber (actions before)).toNat = k + 1 ∧
      nextNumber (actions before) = UInt64.ofNat (idOf k) ∧
      c.nameOf k = settings.namePrefix ++ "-" ++ toString (nextNumber (actions before))
  /-- An earlier and a later attempt have neither the number nor the name in common. -/
  distinct : ∀ before mode report between mode' report' after,
    history = before ++ (.request mode, report) :: between ++ (.request mode', report') :: after →
      nextNumber (actions before) ≠
        nextNumber (actions (before ++ (.request mode, report) :: between)) ∧
      c.nameOf (attempts (actions before)) ≠
        c.nameOf (attempts (actions (before ++ (.request mode, report) :: between)))
  granted : ∀ k report, (.worker k .announce, report) ∈ history →
    report.outcome = some (.spawned k)
  /-- The system can refuse every worker that is asked for, as long as it has not answered. -/
  refuses : ∀ k w source, c.workers[k]? = some w → w.launch = .requested →
    ∃ c', c.step (.worker k (.refuse source)) = some (c', refusalReport (c.nameOf k) source)
  refused : ∀ k source report, (.worker k (.refuse source), report) ∈ history →
    report = refusalReport (c.nameOf k) source
  /-- Nothing else is ever done to a worker that the system refuses, so its work never begins. -/
  unstarted : ∀ k source deed, .worker k (.refuse source) ∈ actions history →
    .worker k deed ∈ actions history → ∃ other, deed = .refuse other
  /-- The counters are those of the run without the attempt, whichever the other actions are. -/
  uncounted : ∀ k source, .worker k (.refuse source) ∈ actions history →
    ∃ history' d, Run settings history' d ∧ actions history' = without k (actions history) ∧
      d.stats = c.stats

/-- Whatever the parties do in whatever order, and whichever attempts the system refuses. -/
theorem Run.attempted (run : Run settings history c) (few : attempts (actions history) < 2 ^ 64) :
    Attempted settings history c where
  numbered before mode report after k hhistory hk := by
    have hcount := attempts_of_append hhistory
    have hnumber : (nextNumber (actions before)).toNat = k + 1 := by
      rw [toNat_nextNumber (by omega), hk]
    refine ⟨hk ▸ run.asked hhistory, hnumber, ?_, ?_⟩
    · rw [idOf, ← hnumber, UInt64.ofNat_toNat]
    · rw [nameOf, run.settings_eq, idOf, ← hnumber]
      rfl
  distinct before mode report between mode' report' after hhistory := by
    have hless : attempts (actions before) + 1 ≤
        attempts (actions (before ++ (.request mode, report) :: between)) := attempts_of_append rfl
    have hcount := attempts_of_append hhistory
    refine ⟨fun hsame => ?_, fun hsame => ?_⟩
    · have hnumbers := congrArg UInt64.toNat hsame
      rw [toNat_nextNumber (by omega), toNat_nextNumber (by omega)] at hnumbers
      omega
    · have := nameOf_inj.mp hsame
      omega
  granted k report hmem := by
    obtain ⟨before, after, hhistory⟩ := List.append_of_mem hmem
    obtain ⟨earlier, next, -, taken⟩ := run.taken_at hhistory
    obtain ⟨w, change, -, hchange, -, -, rfl⟩ := step_worker taken
    simp only [change?] at hchange
    split at hchange
    · split at hchange <;> cases hchange <;> rfl
    · cases hchange
  refuses k w source hw requested := exists_step_refuse hw requested source
  refused k source report hmem := by
    obtain ⟨before, after, hhistory⟩ := List.append_of_mem hmem
    obtain ⟨earlier, next, hearlier, taken⟩ := run.taken_at hhistory
    rw [run.nameOf_eq, ← hearlier.nameOf_eq]
    exact report_refuse taken
  unstarted k source deed refused done := run.only_refused (run.unmade_of_refused refused) done
  uncounted k source refused := by
    have unmade := run.unmade_of_refused refused
    obtain ⟨history', d, hrun, hactions, lacks⟩ := run.exists_without unmade
    obtain ⟨w, hw, hlaunch⟩ := run.refused_stays refused
    refine ⟨history', d, hrun, hactions, ?_⟩
    rw [lacks.stats, pending, hw, Option.map_some, hlaunch]
    rw [if_neg (by decide), Int.sub_zero]

end Crew
end Strand
