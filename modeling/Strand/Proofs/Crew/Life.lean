import Mathlib.Tactic.Lemma
import Strand.Crew.Basic

/-! The life of one worker, and what each deed in it does to the counters of the crew. The counters
follow the three sides of a worker at different moments, but never lose sight of it: what a deed
adds to a counter is what it changes in the worker. -/
namespace Strand

namespace Worker

/-- Whether the worker has been counted as spawned. -/
def isSpawned (w : Worker) : Bool := w.launch = .counted ∨ w.launch = .announced

/-- Whether the spawn of the worker in the given mode has come to its end. -/
def isAnnounced (mode : SpawnMode) (w : Worker) : Bool := w.launch = .announced ∧ w.mode = mode

/-- Whether the body of the worker is not over, which takes in one that is still to come. -/
def isLive (w : Worker) : Bool := w.launch ≠ .refused ∧ w.isFinished = false

/-- Whether the work has panicked, once or twice. -/
def hasPanicked (w : Worker) : Bool :=
  match w.body with
  | .stopped ending | .over ending => ending ≠ .returned
  | _ => false

/-- Whether the worker is over and its handle is spent, on a join or otherwise. -/
def isReclaimed (w : Worker) : Bool := w.isFinished = true ∧ w.claim = .spent

/-- How the three sides of a worker agree with each other. -/
structure Sound (w : Worker) : Prop where
  /-- The worker lives if the system has granted it, whether or not it has been counted since. -/
  unborn : w.body = .unborn ↔ w.launch = .requested ∨ w.launch = .refused
  unannounced : w.launch ≠ .announced → w.claim = .none
  detached : w.mode = .detached → w.claim = .none

lemma sound_requested (mode : SpawnMode) : (⟨mode, .requested, .unborn, .none⟩ : Worker).Sound where
  unborn := by simp
  unannounced _ := rfl
  detached _ := rfl

/-- There is a handle only of a worker that can be joined, from its announcement on. -/
lemma Sound.of_claim {w : Worker} (sound : w.Sound) (h : w.claim ≠ .none) :
    w.launch = .announced ∧ w.mode = .joinable := by
  refine ⟨Decidable.byContradiction fun hlaunch => h (sound.unannounced hlaunch), ?_⟩
  cases hmode : w.mode with
  | detached => exact absurd (sound.detached hmode) h
  | joinable => rfl

end Worker

/-- Whether a report tells a joining party that the worker is over. A worker that tries to join
itself is told something else. -/
def Crew.Report.endsJoin (report : Report) : Bool :=
  match report.outcome with
  | some .joined | some (.failed (.panicked _ _)) => true
  | _ => false

namespace Crew

/-- What a deed does to the counters, next to what it does to the worker `w`. -/
structure Booked (w : Worker) (stats : CrewStats) (change : Change) : Prop where
  sound : change.worker.Sound
  spawned : change.stats.spawned + w.isSpawned.toNat =
    stats.spawned + change.worker.isSpawned.toNat
  detached : change.stats.detached + (w.isAnnounced .detached).toNat =
    stats.detached + (change.worker.isAnnounced .detached).toNat
  joinable : change.stats.joinable + (w.isAnnounced .joinable).toNat =
    stats.joinable + (change.worker.isAnnounced .joinable).toNat
  panicked : change.stats.panicked + w.hasPanicked.toNat =
    stats.panicked + change.worker.hasPanicked.toNat
  live : change.stats.live + w.isLive.toNat = stats.live + change.worker.isLive.toNat
  joined : change.stats.joined = stats.joined + change.report.endsJoin.toNat
  /-- Nobody is told of an end before the worker is over, and nobody is told twice. -/
  reclaimed : change.report.endsJoin.toNat + w.isReclaimed.toNat ≤ change.worker.isReclaimed.toNat

theorem booked {w : Worker} {stats : CrewStats} {change : Change} {who : Nat} {name : String}
    {deed : Deed} (sound : w.Sound) (h : change? who name w stats deed = some change) :
    Booked w stats change := by
  have claimed := sound.of_claim
  obtain ⟨unborn, unannounced, detached⟩ := sound
  obtain ⟨mode, launch, body, claim⟩ := w
  dsimp only at unborn unannounced detached claimed
  cases deed with
  | grant =>
    simp only [change?] at h
    split at h <;> cases h
    next hlaunch =>
    subst hlaunch
    obtain rfl : body = .unborn := unborn.mpr (.inl rfl)
    obtain rfl : claim = .none := unannounced (by simp)
    exact ⟨⟨by simp, fun _ => rfl, fun _ => rfl⟩, rfl, rfl, rfl, rfl, rfl, rfl, Nat.le_refl _⟩
  | refuse source =>
    simp only [change?] at h
    split at h <;> cases h
    next hlaunch =>
    subst hlaunch
    obtain rfl : body = .unborn := unborn.mpr (.inl rfl)
    obtain rfl : claim = .none := unannounced (by simp)
    refine ⟨⟨by simp, fun _ => rfl, fun _ => rfl⟩, rfl, rfl, rfl, rfl, ?_, rfl, Nat.le_refl _⟩
    simp [Worker.isLive, Worker.isFinished]
  | count =>
    simp only [change?] at h
    split at h <;> cases h
    next hlaunch =>
    subst hlaunch
    obtain rfl : claim = .none := unannounced (by simp)
    have hborn : body ≠ .unborn := by simpa using unborn
    refine ⟨⟨by simp [hborn], fun _ => rfl, fun _ => rfl⟩, rfl, rfl, rfl, rfl, ?_, rfl, ?_⟩
    · simp [Worker.isLive, Worker.isFinished]
    · simp [Report.endsJoin, Report.quiet, Worker.isReclaimed]
  | announce =>
    simp only [change?] at h
    split at h
    next hlaunch =>
      subst hlaunch
      obtain rfl : claim = .none := unannounced (by simp)
      have hborn : body ≠ .unborn := by simpa using unborn
      cases mode with
      | detached =>
        cases h
        refine ⟨⟨by simp [hborn], fun _ => rfl, fun _ => rfl⟩, rfl, rfl, rfl, rfl, ?_, rfl, ?_⟩
        · simp [Worker.isLive, Worker.isFinished]
        · simp [Report.endsJoin, Worker.isReclaimed]
      | joinable =>
        cases h
        refine ⟨⟨by simp [hborn], by simp, by simp⟩, rfl, rfl, rfl, rfl, ?_, rfl, ?_⟩
        · simp [Worker.isLive, Worker.isFinished]
        · simp [Report.endsJoin, Worker.isReclaimed]
    · cases h
  | begin =>
    simp only [change?] at h
    split at h <;> cases h
    next hbody =>
    subst hbody
    have hborn : ¬(launch = .requested ∨ launch = .refused) := by simpa using unborn
    exact ⟨⟨by simp [hborn], unannounced, detached⟩, rfl, rfl, rfl, rfl, rfl, rfl, Nat.le_refl _⟩
  | stop ending =>
    simp only [change?] at h
    split at h <;> cases h
    next hbody =>
    subst hbody
    have hborn : ¬(launch = .requested ∨ launch = .refused) := by simpa using unborn
    refine ⟨⟨by simp [hborn], unannounced, detached⟩, rfl, rfl, rfl, ?_, rfl, rfl, Nat.le_refl _⟩
    cases ending <;> rfl
  | leave =>
    simp only [change?] at h
    split at h <;> cases h
    next ending =>
    have hborn : ¬(launch = .requested ∨ launch = .refused) := by simpa using unborn
    have hgranted : launch ≠ .refused := fun h => hborn (.inr h)
    refine ⟨⟨by simp [hborn], unannounced, detached⟩, rfl, rfl, rfl, rfl, ?_, rfl, ?_⟩
    · simp [Worker.isLive, Worker.isFinished, hgranted]
    · simp [Report.endsJoin, Report.quiet, Worker.isReclaimed, Worker.isFinished]
  | join caller =>
    simp only [change?] at h
    split at h
    next hclaim =>
      subst hclaim
      obtain ⟨rfl, rfl⟩ := claimed (by simp)
      split at h <;> cases h
      · refine ⟨⟨unborn, by simp, by simp⟩, rfl, rfl, rfl, rfl, rfl, rfl, ?_⟩
        simp [Report.endsJoin, Report.yields, Worker.isReclaimed]
      · refine ⟨⟨unborn, by simp, by simp⟩, rfl, rfl, rfl, rfl, rfl, rfl, ?_⟩
        simp [Report.endsJoin, Report.line, Worker.isReclaimed]
    · cases h
  | collect =>
    simp only [change?] at h
    split at h
    next hclaim =>
      subst hclaim
      obtain ⟨rfl, rfl⟩ := claimed (by simp)
      split at h <;> cases h
      next ending =>
      have hends : (collectReport name ending).endsJoin = true := by
        simp only [Report.endsJoin, collectReport]
        cases ending.fault? <;> rfl
      refine ⟨⟨unborn, by simp, by simp⟩, rfl, rfl, rfl, rfl, rfl, ?_, ?_⟩
      · simp [hends]
      · simp [hends, Worker.isReclaimed, Worker.isFinished]
    · cases h
  | drop =>
    simp only [change?] at h
    split at h <;> cases h
    next hclaim =>
    subst hclaim
    obtain ⟨rfl, rfl⟩ := claimed (by simp)
    refine ⟨⟨unborn, by simp, by simp⟩, rfl, rfl, rfl, rfl, rfl, rfl, ?_⟩
    simp [Report.endsJoin, Report.quiet, Worker.isReclaimed]

/-- The deeds by which the body of a worker goes on. -/
def Deed.isOfBody : Deed → Bool
  | .grant | .begin | .stop _ | .leave => true
  | _ => false

/-- How the body of a worker goes on by a deed. -/
inductive BodyMoves : Body → Deed → Body → Prop
  | born : BodyMoves .unborn .grant .waiting
  | begins : BodyMoves .waiting .begin .working
  | stops (ending : Ending) : BodyMoves .working (.stop ending) (.stopped ending)
  | leaves (ending : Ending) : BodyMoves (.stopped ending) .leave (.over ending)
  | stays {body : Body} {deed : Deed} (aside : deed.isOfBody = false) : BodyMoves body deed body

lemma bodyMoves {w : Worker} {stats : CrewStats} {change : Change} {who : Nat} {name : String}
    {deed : Deed} (sound : w.Sound) (h : change? who name w stats deed = some change) :
    BodyMoves w.body deed change.worker.body := by
  have unborn := sound.unborn
  cases deed with
  | grant =>
    simp only [change?] at h
    split at h <;> cases h
    next hlaunch =>
    rw [unborn.mpr (.inl hlaunch)]
    exact .born
  | begin =>
    simp only [change?] at h
    split at h <;> cases h
    next hbody =>
    rw [hbody]
    exact .begins
  | stop ending =>
    simp only [change?] at h
    split at h <;> cases h
    next hbody =>
    rw [hbody]
    exact .stops ending
  | leave =>
    simp only [change?] at h
    split at h <;> cases h
    next ending hbody =>
    rw [hbody]
    exact .leaves ending
  | refuse | count | drop =>
    simp only [change?] at h
    split at h <;> cases h
    exact .stays rfl
  | announce =>
    simp only [change?] at h
    split at h
    · split at h <;> cases h <;> exact .stays rfl
    · cases h
  | join =>
    simp only [change?] at h
    split at h
    · split at h <;> cases h <;> exact .stays rfl
    · cases h
  | collect =>
    simp only [change?] at h
    split at h
    · split at h
      next ending hbody =>
        cases h
        exact .stays rfl
      · cases h
    · cases h

/-- The deeds that use a handle up or wait on it. -/
def Deed.usesHandle : Deed → Bool
  | .join _ | .collect | .drop => true
  | _ => false

/-- How the handle of the worker `k` goes on by a deed. -/
inductive ClaimMoves (k : Nat) : Claim → Deed → Claim → Prop
  | comes : ClaimMoves k .none .announce .held
  | waits {caller : Party} (other : caller ≠ .worker k) : ClaimMoves k .held (.join caller) .joining
  | itself : ClaimMoves k .held (.join (.worker k)) .spent
  | collects : ClaimMoves k .joining .collect .spent
  | drops : ClaimMoves k .held .drop .spent
  | stays {claim : Claim} {deed : Deed} (aside : deed.usesHandle = false) :
      ClaimMoves k claim deed claim

lemma claimMoves {w : Worker} {stats : CrewStats} {change : Change} {who : Nat} {name : String}
    {deed : Deed} (sound : w.Sound) (h : change? who name w stats deed = some change) :
    ClaimMoves who w.claim deed change.worker.claim := by
  cases deed with
  | grant | refuse | count | begin | stop | leave =>
    simp only [change?] at h
    split at h <;> cases h
    exact .stays rfl
  | announce =>
    simp only [change?] at h
    split at h
    next hlaunch =>
      split at h <;> cases h
      · exact .stays rfl
      · rw [sound.unannounced (by simp [hlaunch])]
        exact .comes
    · cases h
  | join caller =>
    simp only [change?] at h
    split at h
    next hclaim =>
      rw [hclaim]
      split at h <;> cases h
      next hself =>
        subst hself
        exact .itself
      next hother => exact .waits hother
    · cases h
  | collect =>
    simp only [change?] at h
    split at h
    next hclaim =>
      rw [hclaim]
      split at h <;> cases h
      exact .collects
    · cases h
  | drop =>
    simp only [change?] at h
    split at h <;> cases h
    next hclaim =>
    rw [hclaim]
    exact .drops

/-- A deed changes its own worker and the counters. -/
lemma step_worker {c c' : Crew} {k : Nat} {report : Report} {deed : Deed}
    (hstep : c.step (.worker k deed) = some (c', report)) :
    ∃ w change, c.workers[k]? = some w ∧ change? k (c.nameOf k) w c.stats deed = some change ∧
      c'.workers = c.workers.set k change.worker ∧ c'.stats = change.stats ∧
      report = change.report := by
  simp only [step] at hstep
  cases hw : c.workers[k]? with
  | none => simp [hw] at hstep
  | some w =>
    simp only [hw, Option.map_eq_some_iff, Prod.mk.injEq] at hstep
    obtain ⟨change, hchange, rfl, rfl⟩ := hstep
    exact ⟨w, change, rfl, hchange, rfl, rfl, rfl⟩

lemma exists_step_of_change {c : Crew} {k : Nat} {w : Worker} {deed : Deed} {change : Change}
    (hw : c.workers[k]? = some w)
    (taken : change? k (c.nameOf k) w c.stats deed = some change) :
    ∃ c' report, c.step (.worker k deed) = some (c', report) := by
  simp [step, hw, taken]

/-- A worker stays in its place, and nothing but a deed of its own changes it. -/
lemma step_at {c c' : Crew} {action : Action} {report : Report} {k : Nat} {w : Worker}
    (hstep : c.step action = some (c', report)) (hw : c.workers[k]? = some w) :
    (∃ deed change, action = .worker k deed ∧
        change? k (c.nameOf k) w c.stats deed = some change ∧
        c'.workers[k]? = some change.worker) ∨
      c'.workers[k]? = some w ∧ ∀ deed, action ≠ .worker k deed := by
  have hlt := (List.getElem?_eq_some_iff.mp hw).1
  cases action with
  | request mode =>
    cases hstep
    refine .inr ⟨?_, by simp⟩
    rw [request, List.getElem?_append_left hlt, hw]
  | worker j deed =>
    obtain ⟨v, change, hv, hchange, hworkers, -, -⟩ := step_worker hstep
    by_cases hjk : j = k
    · subst hjk
      rw [hv] at hw
      cases hw
      refine .inl ⟨deed, change, rfl, hchange, ?_⟩
      rw [hworkers, List.getElem?_set_self hlt]
    · refine .inr ⟨?_, by simp [hjk]⟩
      rw [hworkers, List.getElem?_set_ne hjk, hw]

/-- No body goes on but by a deed of its own worker. -/
lemma step_body {c c' : Crew} {action : Action} {report : Report} {k : Nat} {w : Worker}
    (sound : ∀ w ∈ c.workers, w.Sound) (hstep : c.step action = some (c', report))
    (hw : c.workers[k]? = some w) : ∃ w', c'.workers[k]? = some w' ∧
      ((∃ deed, action = .worker k deed ∧ BodyMoves w.body deed w'.body) ∨
        (w' = w ∧ ∀ deed, action ≠ .worker k deed)) := by
  rcases step_at hstep hw with ⟨deed, change, rfl, hchange, hw'⟩ | ⟨hw', hother⟩
  · have hmoves := bodyMoves (sound w (List.mem_of_getElem? hw)) hchange
    exact ⟨change.worker, hw', .inl ⟨deed, rfl, hmoves⟩⟩
  · exact ⟨w, hw', .inr ⟨rfl, hother⟩⟩

end Crew
end Strand
