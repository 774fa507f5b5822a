import Strand.Proofs.Channel.Rest
import Strand.Proofs.Pipeline.Progress

/-! No run of a pipeline goes on forever. Every move takes something off the effort that is left,
and a plan starts with the effort that it names. -/
namespace Strand.Pipeline
open Worker

variable {plan : Plan} {p q : Pipeline} {m : Move}

/-- What is left to do on the channel for a job. A value is sent and received, and each of the two
may wake a thread in vain. -/
def jobEffort : Job Parcel → Nat
  | .send _ => 4
  | .receive | .collect _ => 1

/-- How many moves a worker has ahead of it, apart from its turns on the channel. -/
def bodyEffort : Body → Nat
  | .unborn | .waiting => 3
  | .working => 2
  | .stopped _ => 1
  | .over _ => 0

/-- A chore is one move. That a worker is asked for adds what the worker has to do, one turn in
which it parks and one more to which the close wakes it. -/
def choreEffort : Chore → Nat
  | .request jobs => (Caller.ofJobs jobs).load jobEffort + 6
  | .act _ | .close => 1

/-- No more moves than this can follow. -/
def effortLeft (p : Pipeline) : Nat :=
  (p.chores.map choreEffort).sum + (p.crew.workers.map fun w => bodyEffort w.body).sum +
    p.crowd.load jobEffort + if p.crowd.shared.channel.closed then 0 else p.crowd.callers.length

/-- Every chore is a move that is left. -/
lemma isComplete_of_effortLeft (h : p.effortLeft = 0) : p.isComplete = true := by
  cases hchores : p.chores with
  | nil => rw [isComplete, hchores, List.isEmpty_nil]
  | cons chore chores =>
    have hpos : 0 < choreEffort chore := by cases chore <;> simp [choreEffort]
    rw [effortLeft, hchores, List.map_cons, List.sum_cons] at h
    omega

lemma outweighs_jobEffort : Job.Outweighs jobEffort where
  send _ := Nat.le_refl _
  receive := Nat.le_refl _
  collect _ := Nat.le_refl _

section
variable {history : List (Occurrence Parcel)} {crowd : Crowd Parcel}

lemma Playing.load_call (playing : Playing plan history crowd) (jobs : List (Job Parcel)) :
    (crowd.call jobs).load jobEffort ≤
      crowd.load jobEffort + (Caller.ofJobs jobs).load jobEffort + 1 := by
  have hbefore := Crowd.load_add_parked jobEffort playing.run.books.holds playing.run.orderly
  have hafter := Crowd.load_add_parked jobEffort (c := crowd.call jobs) playing.run.books.holds
    (playing.run.orderly.call jobs)
  have hone := List.countP_le_length (p := fun caller : Caller Parcel => !caller.isFinished)
    (l := [Caller.ofJobs jobs])
  rw [foldr_add_eq_sum] at hbefore hafter
  simp only [Crowd.call, List.map_append, List.sum_append, List.countP_append, List.map_cons,
    List.map_nil, List.sum_cons, List.sum_nil, List.length_singleton] at hafter hone ⊢
  omega

/-- The close wakes those that are parked. -/
lemma Playing.load_close (playing : Playing plan history crowd) :
    crowd.close.2.1.load jobEffort = crowd.load jobEffort + crowd.shared.parked.length := by
  have hbefore := Crowd.load_add_parked jobEffort playing.run.books.holds playing.run.orderly
  have hafter := Crowd.load_add_parked jobEffort (c := crowd.close.2.1) playing.run.books.holds
    (Crowd.Orderly.close crowd)
  rw [Shared.parked, List.length_append]
  simp only [Crowd.close, Shared.close, Channel.close, List.length_nil] at hafter ⊢
  omega

lemma Playing.length_parked_le (playing : Playing plan history crowd) :
    crowd.shared.parked.length ≤
      if crowd.shared.channel.closed then 0 else crowd.callers.length := by
  have orderly := playing.run.orderly
  split
  next hclosed => rw [orderly.closed hclosed, List.length_nil]
  next =>
    have hready := orderly.length_ready
    have hle := List.countP_le_length (p := fun caller : Caller Parcel => !caller.isFinished)
      (l := crowd.callers)
    omega

end

/-- No deed adds to what its worker has ahead of it. -/
lemma bodyEffort_le {body body' : Body} {deed : Crew.Deed} (h : Crew.BodyMoves body deed body') :
    bodyEffort body' ≤ bodyEffort body := by
  cases h <;> simp [bodyEffort]

lemma bodyEffort_lt {w : Worker} {caller : Caller Parcel} {body' : Body} {deed : Crew.Deed}
    (due : Due w caller deed) (h : Crew.BodyMoves w.body deed body') :
    bodyEffort body' < bodyEffort w.body := by
  have hown : deed.isOfBody = true := by cases due <;> rfl
  generalize w.body = body at h
  cases h with
  | born => cases due
  | begins | stops | leaves => simp [bodyEffort]
  | stays aside =>
    rw [hown] at aside
    cases aside

/-- The effort of the workers changes with one body. -/
lemma sum_bodyEffort {crew crew' : Crew} {who : Nat} {deed : Crew.Deed} {report : Crew.Report}
    (sound : ∀ w ∈ crew.workers, w.Sound)
    (step : crew.step (.worker who deed) = some (crew', report)) :
    ∃ w body', crew.workers[who]? = some w ∧ Crew.BodyMoves w.body deed body' ∧
      (crew'.workers.map fun w => bodyEffort w.body).sum + bodyEffort w.body =
        (crew.workers.map fun w => bodyEffort w.body).sum + bodyEffort body' := by
  obtain ⟨w, change, hw, hchange, hworkers, -⟩ := Crew.step_worker step
  refine ⟨w, change.worker.body, hw, Crew.bodyMoves (sound w (List.mem_of_getElem? hw)) hchange, ?_⟩
  have hsum := foldr_set_add hw change.worker fun w => bodyEffort w.body
  rw [foldr_add_eq_sum, foldr_add_eq_sum, ← hworkers] at hsum
  exact hsum

/-- Every move takes something off the effort that is left. -/
theorem Moved.effort_lt (sound : Sound plan p) (h : Moved p m q) :
    q.effortLeft < p.effortLeft := by
  obtain ⟨history, playing⟩ := sound.playing
  obtain ⟨reports, run⟩ := sound.staffed.run
  have workers := run.ledger.sound
  cases h with
  | @request jobs chores next =>
    have hload := playing.load_call jobs
    have hclosed : (p.crowd.call jobs).shared.channel.closed = p.crowd.shared.channel.closed := rfl
    have hlength : (p.crowd.call jobs).callers.length = p.crowd.callers.length + 1 := by
      simp [Crowd.call]
    simp only [effortLeft, next, hclosed, hlength, Crew.request, List.map_append, List.sum_append,
      List.map_cons, List.sum_cons, List.map_nil, List.sum_nil, choreEffort, bodyEffort]
    split <;> omega
  | @act a crew report chores next step =>
    have ahead := sound.ahead
    rw [next] at ahead
    generalize p.crowd.shared.channel.closed = closed at ahead
    obtain ⟨who, deed, rfl⟩ : ∃ who deed, a = .worker who deed := by
      cases ahead with
      | act | collect => exact ⟨_, _, rfl⟩
    obtain ⟨w, body', -, hbody, hsum⟩ := sum_bodyEffort workers step
    have hle := bodyEffort_le hbody
    simp only [effortLeft, next, List.map_cons, List.sum_cons, choreEffort]
    omega
  | @close chores next =>
    have hload := playing.load_close
    have hparked := playing.length_parked_le
    have hclosed : p.crowd.close.2.1.shared.channel.closed = true := rfl
    simp only [effortLeft, next, hclosed, if_true, hload, List.map_cons, List.sum_cons, choreEffort]
    omega
  | @lives who pick w caller deed crew report worker mate due step =>
    obtain ⟨v, body', hv, hbody, hsum⟩ := sum_bodyEffort workers step
    rw [worker] at hv
    cases hv
    have hlt := bodyEffort_lt due hbody
    simp only [effortLeft]
    omega
  | @turn who pick w caller crowd events worker mate body unfinished step =>
    obtain ⟨caller, s, caller', ys, hcaller, hunfinished, hwho, hturned, rfl⟩ :=
      Crowd.turn_cases playing.run.books.holds step
    have hload := hturned.load_lt outweighs_jobEffort playing.run.books.holds playing.run.orderly
      hcaller hunfinished hwho
    simp only [effortLeft, hturned.closed_eq, List.length_set]
    omega

lemma sum_launches (jobs : List (List (Job Parcel))) (position : Nat → Nat) :
    (((jobs.mapIdx fun i => Plan.launch (position i)).flatten).map choreEffort).sum =
      (jobs.map fun program => (Caller.ofJobs program).load jobEffort).sum + 9 * jobs.length := by
  induction jobs generalizing position with
  | nil => rfl
  | cons program jobs ih =>
    rw [List.mapIdx_cons, List.flatten_cons, List.map_append, List.sum_append, ih]
    simp only [Plan.launch, List.map_cons, List.map_nil, List.sum_cons, List.sum_nil, choreEffort,
      List.length_cons]
    omega

lemma sum_joins (whos : List Nat) :
    ((whos.flatMap Plan.join).map choreEffort).sum = 2 * whos.length := by
  induction whos with
  | nil => rfl
  | cons who whos ih =>
    rw [List.flatMap_cons, List.map_append, List.sum_append, ih]
    simp only [Plan.join, List.map_cons, List.map_nil, List.sum_cons, List.sum_nil, choreEffort,
      List.length_cons]
    omega

lemma load_producerJobs (producer : Nat) (values : List Int64) :
    (Caller.ofJobs (Plan.producerJobs producer values)).load jobEffort = 4 * values.length := by
  induction values with
  | nil => rfl
  | cons value values ih =>
    rw [Caller.load, Caller.ofJobs, Plan.producerJobs] at ih ⊢
    rw [List.map_cons, List.foldr_cons, ih, jobEffort, List.length_cons]
    omega

lemma sum_producerJobs (producers : List (List Int64)) (position : Nat → Nat) :
    ((producers.mapIdx fun i => Plan.producerJobs (position i)).map
      fun program => (Caller.ofJobs program).load jobEffort).sum =
      4 * (producers.map List.length).sum := by
  induction producers generalizing position with
  | nil => rfl
  | cons values producers ih =>
    rw [List.mapIdx_cons, List.map_cons, List.sum_cons, List.map_cons, List.sum_cons, ih,
      load_producerJobs]
    omega

/-- The jobs of the producers count by their values, and each consumer has one. -/
lemma sum_jobs (plan : Plan) :
    (plan.jobs.map fun program => (Caller.ofJobs program).load jobEffort).sum =
      plan.consumers + 4 * plan.values := by
  have hproducers := sum_producerJobs plan.producers fun i => i
  have hconsumer : (Caller.ofJobs [Job.collect none]).load jobEffort = 1 := rfl
  rw [Plan.jobs, List.map_append, List.sum_append, hproducers, List.map_replicate,
    List.sum_replicate_nat, hconsumer, Nat.mul_one, Plan.values, foldr_add_eq_sum]

/-- A plan starts with no more than the effort that it names. -/
lemma effortLeft_ofPlan_le (plan : Plan) : (ofPlan plan).effortLeft ≤ plan.effort := by
  have hlaunches := sum_launches plan.jobs fun i => i
  rw [sum_jobs, plan.length_jobs] at hlaunches
  have hchores : (plan.chores.map choreEffort).sum =
      plan.consumers + 4 * plan.values + 9 * plan.threads + 2 * plan.producers.length + 1 +
        2 * plan.consumers := by
    rw [Plan.chores, List.map_append, List.sum_append, List.map_append, List.sum_append,
      List.map_append, List.sum_append, hlaunches, sum_joins, sum_joins, List.length_range',
      List.length_range]
    rfl
  have hleft : (ofPlan plan).effortLeft = (plan.chores.map choreEffort).sum := rfl
  rw [hleft, hchores, Plan.effort, Plan.threads]
  omega

theorem Run.effort_le {n : Nat} (run : Run plan n p) : n + p.effortLeft ≤ plan.effort := by
  induction run with
  | start =>
    rw [Nat.zero_add]
    exact effortLeft_ofPlan_le plan
  | move run m taken ih =>
    have hlt := (step_iff.mp taken).effort_lt run.sound
    omega

end Strand.Pipeline
