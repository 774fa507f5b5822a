import Strand.Host.Step
import Strand.Proofs.Crew.Life

/-! What the spawning and the joining side have at stake in a worker: whether it can be joined, and
what has become of its handle. A deed changes the stake of its own worker at most, and only an
announcement, a join, the end of a join and a drop do. -/
namespace Strand

namespace Crew
variable {c c' : Crew} {k : Nat} {report : Report} {deed : Deed}

/-- The mode of a worker, and what has become of its handle. -/
def stake? (c : Crew) (k : Nat) : Option (SpawnMode × Claim) :=
  c.workers[k]?.map fun w => (w.mode, w.claim)

/-- The other workers of a crew are not touched by a deed. -/
lemma stake?_step_ne (hstep : c.step (.worker k deed) = some (c', report)) {j : Nat} (hne : j ≠ k) :
    c'.stake? j = c.stake? j := by
  obtain ⟨w, change, -, -, hworkers, -⟩ := step_worker hstep
  rw [stake?, stake?, hworkers, List.getElem?_set_ne (Ne.symm hne)]

lemma stake?_step_self (hstep : c.step (.worker k deed) = some (c', report)) :
    ∃ w change, c.stake? k = some (w.mode, w.claim) ∧
      change? k (c.nameOf k) w c.stats deed = some change ∧
      c'.stake? k = some (change.worker.mode, change.worker.claim) ∧ report = change.report := by
  obtain ⟨w, change, hw, hchange, hworkers, -, hreport⟩ := step_worker hstep
  have hlt := (List.getElem?_eq_some_iff.mp hw).1
  refine ⟨w, change, by rw [stake?, hw]; rfl, hchange, ?_, hreport⟩
  rw [stake?, hworkers, List.getElem?_set_self hlt]
  rfl

lemma stake?_length (c : Crew) : c.stake? c.workers.length = none := by
  rw [stake?, List.getElem?_eq_none (Nat.le_refl _)]
  rfl

/-- A request adds one worker, whose handle is still to come. -/
lemma stake?_request_self (c : Crew) (mode : SpawnMode) :
    (c.request mode).stake? c.workers.length = some (mode, .none) := by
  rw [stake?, request, List.getElem?_concat_length]
  rfl

lemma stake?_request_ne (c : Crew) (mode : SpawnMode) {j : Nat} (hne : j ≠ c.workers.length) :
    (c.request mode).stake? j = c.stake? j := by
  rw [stake?, stake?, request]
  rcases Nat.lt_or_gt_of_ne hne with hlt | hgt
  · rw [List.getElem?_append_left hlt]
  · rw [List.getElem?_eq_none (Nat.le_of_lt hgt), List.getElem?_eq_none]
    rw [List.length_append, List.length_singleton]
    omega

/-- The deeds that leave every stake as it is. -/
def Deed.isNeutral : Deed → Bool
  | .grant | .refuse _ | .count | .begin | .stop _ | .leave => true
  | _ => false

lemma change?_neutral {w : Worker} {name : String} {stats : CrewStats} {change : Change}
    (hneutral : deed.isNeutral = true) (hchange : change? k name w stats deed = some change) :
    change.worker.mode = w.mode ∧ change.worker.claim = w.claim := by
  cases deed with
  | grant | refuse | count | begin | stop =>
    simp only [change?] at hchange
    split at hchange
    · cases hchange
      exact ⟨rfl, rfl⟩
    · cases hchange
  | leave =>
    simp only [change?] at hchange
    split at hchange
    · cases hchange
      exact ⟨rfl, rfl⟩
    · cases hchange
  | announce | join | collect | drop => cases hneutral

lemma stake?_neutral (hneutral : deed.isNeutral = true)
    (hstep : c.step (.worker k deed) = some (c', report)) : c'.stake? = c.stake? := by
  funext j
  by_cases hj : j = k
  · subst hj
    obtain ⟨w, change, hold, hchange, hnew, -⟩ := stake?_step_self hstep
    obtain ⟨hmode, hclaim⟩ := change?_neutral hneutral hchange
    rw [hold, hnew, hmode, hclaim]
  · exact stake?_step_ne hstep hj

lemma outcome_grant (hstep : c.step (.worker k .grant) = some (c', report)) :
    report.outcome = none := by
  obtain ⟨w, change, -, hchange, -, -, rfl⟩ := step_worker hstep
  simp only [change?] at hchange
  split at hchange <;> cases hchange
  rfl

lemma outcome_count (hstep : c.step (.worker k .count) = some (c', report)) :
    report.outcome = none := by
  obtain ⟨w, change, -, hchange, -, -, rfl⟩ := step_worker hstep
  simp only [change?] at hchange
  split at hchange <;> cases hchange
  rfl

lemma outcome_refuse {source : SystemError}
    (hstep : c.step (.worker k (.refuse source)) = some (c', report)) :
    report.outcome = some (.failed (.spawnFailed source)) := by
  obtain ⟨w, change, -, hchange, -, -, rfl⟩ := step_worker hstep
  simp only [change?] at hchange
  split at hchange <;> cases hchange
  rfl

/-- Only an announcement brings a handle into being, and only for a worker that can be joined. -/
lemma stake?_announce (hstep : c.step (.worker k .announce) = some (c', report)) :
    ∃ mode claim, c.stake? k = some (mode, claim) ∧ report.outcome = some (.spawned k) ∧
      c'.stake? k = some (mode, match mode with | .detached => claim | .joinable => .held) := by
  obtain ⟨w, change, hold, hchange, hnew, rfl⟩ := stake?_step_self hstep
  refine ⟨w.mode, w.claim, hold, ?_⟩
  simp only [change?] at hchange
  split at hchange
  · split at hchange
    next hmode =>
      cases hchange
      exact ⟨rfl, by rw [hnew, hmode]⟩
    next hmode =>
      cases hchange
      exact ⟨rfl, by rw [hnew, hmode]⟩
  · cases hchange

/-- A join by another party than the worker itself begins as long as the handle is held. -/
lemma exists_step_join {mode : SpawnMode} {caller : Party} (hheld : c.stake? k = some (mode, .held))
    (hother : caller ≠ .worker k) :
    ∃ c' report, c.step (.worker k (.join caller)) = some (c', report) ∧ report.outcome = none ∧
      c'.stake? k = some (mode, .joining) := by
  obtain ⟨w, hw, hstake⟩ := Option.map_eq_some_iff.mp hheld
  obtain ⟨rfl, hclaim⟩ := Prod.mk.inj hstake
  have hlt := (List.getElem?_eq_some_iff.mp hw).1
  have hstep : ∃ c' report, c.step (.worker k (.join caller)) = some (c', report) ∧
      report.outcome = none := by
    simp only [step, hw, change?, hclaim, if_true, if_neg hother, Option.map_some]
    exact ⟨_, _, rfl, rfl⟩
  obtain ⟨c', report, hstep, houtcome⟩ := hstep
  refine ⟨c', report, hstep, houtcome, ?_⟩
  obtain ⟨w', change, hold, hchange, hnew, -⟩ := stake?_step_self hstep
  rw [hheld] at hold
  obtain ⟨hmode, hclaim'⟩ := Prod.mk.inj (Option.some.inj hold)
  simp only [change?, ← hclaim', if_true, if_neg hother] at hchange
  cases hchange
  rw [hnew, hmode]

lemma stake?_step_ne_none (hstep : c.step (.worker k deed) = some (c', report)) :
    c'.stake? k ≠ none := by
  obtain ⟨w, change, -, -, hnew, -⟩ := stake?_step_self hstep
  rw [hnew]
  exact Option.some_ne_none _

/-- The end of a join waits for the body of the worker to be over. -/
lemma step_collect_iff {w : Worker} (hw : c.workers[k]? = some w) (hjoining : w.claim = .joining) :
    (c.step (.worker k .collect)).isSome = true ↔ w.isFinished = true := by
  simp only [step, hw, change?, hjoining, if_true, Worker.isFinished]
  cases w.body <;> simp

end Crew

namespace Host
variable {p : Host} {k : Nat}

def stake? (p : Host) (k : Nat) : Option (SpawnMode × Claim) := p.crew.bind fun c => c.stake? k

lemma stake?_of_crew {crew : Crew} (h : p.crew = some crew) : p.stake? = crew.stake? := by
  funext k
  rw [stake?, h]
  rfl

lemma workers_freshCrew (source : Settings.Source) : (freshCrew source).1.workers = [] := by
  simp only [freshCrew]
  split
  next crew hcrew =>
    cases hsettings : (Settings.ofSource source).result with
    | error e => simp [hsettings, Except.bind] at hcrew
    | ok settings =>
      simp only [hsettings, Except.bind, Crew.ofSettings?] at hcrew
      cases hvalid : settings.validated with
      | error e => simp [hvalid, Except.map] at hcrew
      | ok valid =>
        simp only [hvalid, Except.map, Except.ok.injEq] at hcrew
        rw [← hcrew]
        rfl
  · rfl

/-- Making the crew changes no stake. -/
lemma stake?_crewed (p : Host) : p.crewed.1.stake? k = p.stake? k := by
  rw [crewed, stake?]
  cases p.crew with
  | some crew => rfl
  | none =>
    rw [Crew.stake?, workers_freshCrew]
    rfl

end Host
end Strand
