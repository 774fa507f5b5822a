import Strand.Proofs.Crew.Life
import Strand.Proofs.Lists

/-! The counters of a crew add up. Whatever the spawning parties, the workers and the joining
parties do in whatever order, every counter is the number of the workers it stands for; and once
nothing goes on any more but work and waiting, the counters agree with each other. -/
namespace Strand

/-- Whether nothing happens to the worker until its work ends or somebody uses its handle. -/
def Worker.rests (w : Worker) : Bool :=
  (w.launch = .refused ∨ w.launch = .announced) ∧
    (match w.body with
      | .waiting | .stopped _ => false
      | .unborn | .working | .over _ => true) = true ∧
    ¬(w.claim = .joining ∧ w.isFinished = true)

namespace Crew

/-- The crews that any parties can bring about in any order, and what was reported to them. -/
inductive Run (settings : Settings) : List (Action × Report) → Crew → Prop
  | start : Run settings [] (ofSettings settings)
  | step {history c c' report} (run : Run settings history c) (action : Action)
    (taken : c.step action = some (c', report)) : Run settings (history ++ [(action, report)]) c'

variable {settings : Settings} {history : List (Action × Report)} {c c' : Crew} {k : Nat}
  {deed : Deed} {report : Report}

lemma settings_step {action : Action} (h : c.step action = some (c', report)) :
    c'.settings = c.settings := by
  cases action with
  | request mode =>
    cases h
    rfl
  | worker k deed =>
    simp only [step] at h
    split at h
    · cases h
    · obtain ⟨change, -, hchange⟩ := Option.map_eq_some_iff.mp h
      cases hchange
      rfl

lemma Run.settings_eq (run : Run settings history c) : c.settings = settings := by
  induction run with
  | start => rfl
  | step _ _ taken ih => exact (settings_step taken).trans ih

/-- The joins that have come to their ends, other than those of workers with themselves. -/
def joins (history : List (Action × Report)) : Nat := history.countP fun entry => entry.2.endsJoin

/-- The deeds that are not left to the work or to the holder of a handle. -/
def Deed.isInternal : Deed → Bool
  | .stop _ | .join _ | .drop => false
  | _ => true

/-- No side of any worker can go on by itself: all threads have ended or are blocked in their work
or in a join, and all spawns have returned. -/
def Settled (c : Crew) : Prop :=
  ∀ k deed, deed.isInternal = true → c.step (.worker k deed) = none

lemma step_eq_none_iff {w : Worker} (hw : c.workers[k]? = some w) :
    c.step (.worker k deed) = none ↔ change? k (c.nameOf k) w c.stats deed = none := by
  simp only [step, hw, Option.map_eq_none_iff]

/-- A crew is settled if all workers rest, whatever the counters are. -/
theorem settled_iff : c.Settled ↔ ∀ w ∈ c.workers, w.rests = true := by
  constructor
  · intro settled w hmem
    obtain ⟨k, hw⟩ := List.mem_iff_getElem?.mp hmem
    have hnone : ∀ deed : Deed, deed.isInternal = true →
        change? k (c.nameOf k) w c.stats deed = none := fun deed hinternal =>
      (step_eq_none_iff hw).mp (settled k deed hinternal)
    have hlaunch : w.launch = .refused ∨ w.launch = .announced := by
      have hgrant := hnone .grant rfl
      have hcount := hnone .count rfl
      have hannounce := hnone .announce rfl
      cases h : w.launch with
      | requested => simp [change?, h] at hgrant
      | granted => simp [change?, h] at hcount
      | counted => cases hmode : w.mode <;> simp [change?, h, hmode] at hannounce
      | refused => exact .inl rfl
      | announced => exact .inr rfl
    have hbegin := hnone .begin rfl
    have hleave := hnone .leave rfl
    have hcollect := hnone .collect rfl
    simp only [Worker.rests, hlaunch, true_and]
    rcases h : w.body with _ | _ | _ | ending | ending
    · simp [Worker.isFinished, h]
    · simp [change?, h] at hbegin
    · simp [Worker.isFinished, h]
    · simp [change?, h] at hleave
    · have hclaim : w.claim ≠ .joining := by
        intro hclaim
        simp [change?, h, hclaim] at hcollect
      simp [hclaim]
  · intro rests k deed hinternal
    cases hw : c.workers[k]? with
    | none => simp [step, hw]
    | some w =>
      have hrests := rests w (List.mem_of_getElem? hw)
      simp only [Worker.rests, decide_eq_true_eq] at hrests
      obtain ⟨hlaunch, hbody, hclaim⟩ := hrests
      rw [step_eq_none_iff hw]
      cases deed with
      | grant | refuse | count | announce =>
        rcases hlaunch with h | h <;> simp [change?, h]
      | begin => cases h : w.body <;> simp [change?, h] at hbody ⊢
      | leave => cases h : w.body <;> simp [change?, h] at hbody ⊢
      | collect =>
        cases h : w.body <;> simp [change?, h, Worker.isFinished] at hclaim ⊢
        exact hclaim
      | stop | join | drop => cases hinternal

/-- What the counters count. -/
structure Ledger (history : List (Action × Report)) (c : Crew) : Prop where
  sound : ∀ w ∈ c.workers, w.Sound
  spawned : c.stats.spawned = c.workers.countP Worker.isSpawned
  detached : c.stats.detached = c.workers.countP (Worker.isAnnounced .detached)
  joinable : c.stats.joinable = c.workers.countP (Worker.isAnnounced .joinable)
  panicked : c.stats.panicked = c.workers.countP Worker.hasPanicked
  live : c.stats.live = c.workers.countP Worker.isLive
  joined : c.stats.joined = joins history
  /-- Every join that has ended has spent the handle of a worker that is over. -/
  reclaimed : c.stats.joined ≤ c.workers.countP Worker.isReclaimed

namespace Ledger

lemma ofSettings (settings : Settings) : Ledger [] (Crew.ofSettings settings) where
  sound _ h := by cases h
  spawned := rfl
  detached := rfl
  joinable := rfl
  panicked := rfl
  live := rfl
  joined := rfl
  reclaimed := Nat.le_refl _

lemma joins_concat (action : Action) (report : Report) :
    joins (history ++ [(action, report)]) = joins history + report.endsJoin.toNat :=
  countP_concat

/-- A worker that is asked for counts as live at once, and as nothing else. -/
lemma request (ledger : Ledger history c) (mode : SpawnMode) :
    Ledger (history ++ [(.request mode, .quiet)]) (c.request mode) := by
  have hsame : ∀ {p : Worker → Bool}, p ⟨mode, .requested, .unborn, .none⟩ = false →
      (c.request mode).workers.countP p = c.workers.countP p := by
    intro p h
    rw [Crew.request, countP_concat, h]
    rfl
  refine ⟨fun w hmem => ?_, ?_, ?_, ?_, ?_, ?_, ?_, ?_⟩
  · rcases List.mem_append.mp hmem with hmem | hmem
    · exact ledger.sound w hmem
    · rw [List.mem_singleton.mp hmem]
      exact Worker.sound_requested mode
  · exact ledger.spawned.trans (hsame rfl).symm
  · exact ledger.detached.trans (hsame rfl).symm
  · exact ledger.joinable.trans (hsame rfl).symm
  · exact ledger.panicked.trans (hsame rfl).symm
  · rw [Crew.request, countP_concat, ledger.live]
    rfl
  · rw [joins_concat]
    exact ledger.joined
  · exact ledger.reclaimed.trans (Nat.le_of_eq (hsame rfl).symm)

/-- A deed adds to each counter what it adds to the workers that the counter stands for. -/
lemma work (ledger : Ledger history c) (hstep : c.step (.worker k deed) = some (c', report)) :
    Ledger (history ++ [(.worker k deed, report)]) c' := by
  obtain ⟨w, change, hw, hchange, hworkers, hstats, rfl⟩ := step_worker hstep
  have booked := booked (ledger.sound w (List.mem_of_getElem? hw)) hchange
  have hcount : ∀ p : Worker → Bool,
      c'.workers.countP p + (p w).toNat = c.workers.countP p + (p change.worker).toNat := by
    intro p
    rw [hworkers]
    exact countP_set_toNat hw change.worker
  have carry : ∀ {p : Worker → Bool} {old new : Nat}, old = c.workers.countP p →
      new + (p w).toNat = old + (p change.worker).toNat → new = c'.workers.countP p := by
    intro p old new hold hnew
    have := hcount p
    omega
  refine ⟨fun v hmem => ?_, ?_, ?_, ?_, ?_, ?_, ?_, ?_⟩
  · rw [hworkers] at hmem
    rcases List.mem_or_eq_of_mem_set hmem with hmem | rfl
    · exact ledger.sound v hmem
    · exact booked.sound
  · exact hstats ▸ carry ledger.spawned booked.spawned
  · exact hstats ▸ carry ledger.detached booked.detached
  · exact hstats ▸ carry ledger.joinable booked.joinable
  · exact hstats ▸ carry ledger.panicked booked.panicked
  · have hworker := hcount Worker.isLive
    have hlive := booked.live
    rw [ledger.live] at hlive
    rw [hstats]
    omega
  · rw [hstats, booked.joined, ledger.joined, joins_concat]
  · have hworker := hcount Worker.isReclaimed
    have hended := booked.reclaimed
    have hbefore := ledger.reclaimed
    rw [hstats, booked.joined]
    omega

lemma joined_le (ledger : Ledger history c) : c.stats.joined ≤ c.stats.joinable := by
  refine ledger.reclaimed.trans ?_
  rw [ledger.joinable]
  refine List.countP_mono_left fun w hmem hreclaimed => ?_
  have hclaim : w.claim = .spent := by
    simp only [Worker.isReclaimed, decide_eq_true_eq] at hreclaimed
    exact hreclaimed.2
  have hannounced := (ledger.sound w hmem).of_claim (by simp [hclaim])
  simp [Worker.isAnnounced, hannounced]

section
variable (ledger : Ledger history c) (settled : c.Settled)
include ledger settled

/-- All spawns have come to their ends in one of the two modes. -/
lemma spawned_eq : c.stats.spawned = c.stats.detached + c.stats.joinable := by
  rw [ledger.spawned, ledger.detached, ledger.joinable]
  refine countP_eq_add fun w hmem => ?_
  have hrests := settled_iff.mp settled w hmem
  simp only [Worker.rests, decide_eq_true_eq] at hrests
  rcases hrests.1 with h | h
  · simp [Worker.isSpawned, Worker.isAnnounced, h]
  · cases hmode : w.mode <;> simp [Worker.isSpawned, Worker.isAnnounced, h, hmode]

/-- The spawned workers are those that are over and those that are not. -/
lemma spawned_eq_live : c.stats.spawned =
    c.workers.countP Worker.isLive + c.workers.countP Worker.isFinished := by
  rw [ledger.spawned]
  refine countP_eq_add fun w hmem => ?_
  have hrests := settled_iff.mp settled w hmem
  have hunborn := (ledger.sound w hmem).unborn
  simp only [Worker.rests, decide_eq_true_eq] at hrests
  rcases hrests.1 with h | h
  · have hbody := hunborn.mpr (.inr h)
    simp [Worker.isSpawned, Worker.isLive, Worker.isFinished, h, hbody]
  · cases hfinished : w.isFinished <;> simp [Worker.isSpawned, Worker.isLive, h, hfinished]

end

end Ledger

theorem Run.ledger (run : Run settings history c) : Ledger history c := by
  induction run with
  | start => exact .ofSettings settings
  | step _ action taken ih =>
    cases action with
    | request mode =>
      cases taken
      exact ih.request mode
    | worker k deed => exact ih.work taken

/-- How the counters agree with each other and with what has happened. -/
structure AddsUp (history : List (Action × Report)) (c : Crew) : Prop where
  spawned : c.stats.spawned = c.stats.detached + c.stats.joinable
  live : c.stats.live = c.stats.spawned - c.workers.countP Worker.isFinished
  joined : c.stats.joined = joins history
  joined_le : c.stats.joined ≤ c.stats.joinable
  joined_live : c.stats.joined + c.stats.live ≤ c.stats.spawned
  panicked : c.stats.panicked = c.workers.countP Worker.hasPanicked

/-- There are never less live workers than none, and the counters add up in a settled crew. -/
theorem Run.counters_add_up (run : Run settings history c) :
    0 ≤ c.stats.live ∧ (c.Settled → AddsUp history c) := by
  have ledger := run.ledger
  refine ⟨?_, fun settled => ?_⟩
  · rw [ledger.live]
    exact Int.natCast_nonneg _
  · have hspawned := ledger.spawned_eq_live settled
    have hfinished : c.workers.countP Worker.isReclaimed ≤ c.workers.countP Worker.isFinished := by
      refine List.countP_mono_left fun w _ hreclaimed => ?_
      simp only [Worker.isReclaimed, decide_eq_true_eq] at hreclaimed
      exact hreclaimed.1
    have hreclaimed := ledger.reclaimed
    refine ⟨ledger.spawned_eq settled, ?_, ledger.joined, ledger.joined_le, ?_, ledger.panicked⟩
    · rw [ledger.live]
      omega
    · rw [ledger.live]
      omega

/-- A worker that panics twice ends before it is counted, and is joined; another one is detached and
still at work; a third one is refused; and the last one tries to join itself. -/
theorem early_panic_counts_once : ∃ history c, Run .defaults history c ∧ c.Settled ∧
    c.stats = ⟨3, 1, 2, 1, 1, 2⟩ ∧ AddsUp history c := by
  have asked : Run .defaults _ _ := Run.start.step (.request .joinable) rfl
  have ended := ((((asked.step (.worker 0 .grant) rfl).step (.worker 0 .begin) rfl).step
    (.worker 0 (.stop (.panickedTwice .other))) rfl).step (.worker 0 .leave) rfl)
  have joined := (((ended.step (.worker 0 .count) rfl).step (.worker 0 .announce) rfl).step
    (.worker 0 (.join (.outside 0))) rfl).step (.worker 0 .collect) rfl
  have detached := ((((joined.step (.request .detached) rfl).step (.worker 1 .grant) rfl).step
    (.worker 1 .count) rfl).step (.worker 1 .announce) rfl).step (.worker 1 .begin) rfl
  have refused := (detached.step (.request .joinable) rfl).step (.worker 2 (.refuse .tryAgain)) rfl
  have last := (((((refused.step (.request .joinable) rfl).step (.worker 3 .grant) rfl).step
    (.worker 3 .count) rfl).step (.worker 3 .announce) rfl).step (.worker 3 .begin) rfl).step
    (.worker 3 (.join (.worker 3))) rfl
  exact ⟨_, _, last, settled_iff.mpr (by decide), rfl,
    last.counters_add_up.2 (settled_iff.mpr (by decide))⟩

end Crew
end Strand
