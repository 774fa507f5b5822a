import Strand.Pipeline
import Strand.Proofs.Lists

/-! What the main thread of a pipeline has still to do. `Ahead` says that the chores fit how far the
main thread has come with each worker: a join waits only when all threads have been started, the
channel is closed only when all producers have been joined, and a join of a consumer waits only
after that. A plan's chores fit from the start, and one chore leaves what fits after it. -/
namespace Strand

namespace Worker

/-- How far the parties that spawn and join a worker have come with it. -/
structure Standing where
  launch : Launch
  claim : Claim
  deriving DecidableEq

def standing (w : Worker) : Standing := ⟨w.launch, w.claim⟩

namespace Standing

def requested : Standing := ⟨.requested, .none⟩

/-- The thread has been started, and nobody has joined it yet. -/
def held : Standing := ⟨.announced, .held⟩

def joining : Standing := ⟨.announced, .joining⟩

def joined : Standing := ⟨.announced, .spent⟩

/-- How a worker is brought on by the deeds of others that never have to wait. -/
inductive Moves : Standing → Crew.Deed → Standing → Prop
  | grant : Moves requested .grant ⟨.granted, .none⟩
  | count : Moves ⟨.granted, .none⟩ .count ⟨.counted, .none⟩
  | announce : Moves ⟨.counted, .none⟩ .announce held
  | join (n : Nat) : Moves held (.join (.outside n)) joining

end Standing
end Worker

namespace Pipeline
open Worker

namespace Plan

/-- What a producer sends, in order. -/
def parcelsOf (p : Plan) (producer : Nat) : List Parcel :=
  (p.producers[producer]?.getD []).map (Parcel.mk producer)

/-- All that is sent. -/
def parcels (p : Plan) : List Parcel := (List.range p.producers.length).flatMap p.parcelsOf

lemma length_jobs (p : Plan) : p.jobs.length = p.threads := by simp [jobs, threads]

lemma length_parcels (p : Plan) : p.parcels.length = p.values := by
  have hlengths : (List.range p.producers.length).map (fun k => (p.parcelsOf k).length) =
      p.producers.map List.length := by
    apply List.ext_getElem
    · simp
    · intro i _ hi
      simp only [List.length_map] at hi
      simp [parcelsOf, hi]
  rw [parcels, List.length_flatMap, hlengths, values, foldr_add_eq_sum]

/-- The first threads drain the channel, and each of the others sends the values of a producer. -/
lemma role {p : Plan} {who : Nat} {program : List (Job Parcel)}
    (h : p.jobs[who]? = some program) :
    (who < p.consumers ∧ program = [.collect none]) ∨
      ∃ k, who = p.consumers + k ∧ program = (p.parcelsOf k).map .send := by
  rcases Nat.lt_or_ge who p.consumers with hlt | hge
  · rw [jobs, List.getElem?_append_left (by simpa using hlt), List.getElem?_replicate, if_pos hlt,
      Option.some.injEq] at h
    exact .inl ⟨hlt, h.symm⟩
  · rw [jobs, List.getElem?_append_right (by simpa using hge), List.length_replicate,
      List.getElem?_mapIdx, Option.map_eq_some_iff] at h
    obtain ⟨values, hvalues, rfl⟩ := h
    refine .inr ⟨who - p.consumers, by omega, ?_⟩
    simp [producerJobs, parcelsOf, hvalues]

end Plan

/-- The chores fit a board that holds the standing of each worker, and a channel that is closed or
not. -/
inductive Ahead (plan : Plan) : List Standing → Bool → List Chore → Prop
  | done {board} (threads : board.length = plan.threads) (joined : ∀ s ∈ board, s = .joined) :
      Ahead plan board true []
  | request {board jobs chores} (next : plan.jobs[board.length]? = some jobs)
      (rest : Ahead plan (board ++ [.requested]) false chores) :
      Ahead plan board false (.request jobs :: chores)
  | act {board closed who deed s t chores} (stands : board[who]? = some s) (moves : s.Moves deed t)
      (rest : Ahead plan (board.set who t) closed chores) :
      Ahead plan board closed (.act (.worker who deed) :: chores)
  | collect {board closed who chores} (stands : board[who]? = some .joining)
      (threads : board.length = plan.threads) (launched : ∀ s ∈ board, s.launch = .announced)
      (ends : who < plan.consumers → closed = true)
      (rest : Ahead plan (board.set who .joined) closed chores) :
      Ahead plan board closed (.act (.worker who .collect) :: chores)
  | close {board chores}
      (joined : ∀ who s, plan.consumers ≤ who → board[who]? = some s → s = .joined)
      (rest : Ahead plan board true chores) : Ahead plan board false (.close :: chores)

namespace Ahead
variable {plan : Plan} {board : List Standing} {closed : Bool} {chores : List Chore}

lemma launch {jobs : List (Job Parcel)} (next : plan.jobs[board.length]? = some jobs)
    (rest : Ahead plan (board ++ [.held]) false chores) :
    Ahead plan board false (Plan.launch board.length jobs ++ chores) := by
  have hlast : ∀ s : Standing, (board ++ [s])[board.length]? = some s :=
    fun s => List.getElem?_concat_length
  have hset : ∀ s t : Standing, (board ++ [s]).set board.length t = board ++ [t] := by
    intro s t
    rw [List.set_append_right _ _ (Nat.le_refl _), Nat.sub_self]
    rfl
  refine .request next (.act (hlast _) .grant ?_)
  rw [hset]
  refine .act (hlast _) .count ?_
  rw [hset]
  refine .act (hlast _) .announce ?_
  rw [hset]
  exact rest

/-- The threads are launched one after the other. -/
lemma launches (pre post : List (List (Job Parcel))) (split : plan.jobs = pre ++ post)
    (rest : Ahead plan (List.replicate plan.threads .held) false chores) :
    Ahead plan (List.replicate pre.length .held) false
      ((post.mapIdx fun i => Plan.launch (pre.length + i)).flatten ++ chores) := by
  induction post generalizing pre with
  | nil =>
    rw [List.append_nil] at split
    rw [← split, Plan.length_jobs]
    exact rest
  | cons jobs post ih =>
    have htail := ih (pre ++ [jobs]) (by rw [split, List.append_assoc, List.singleton_append])
    have hnext : plan.jobs[(List.replicate pre.length Standing.held).length]? = some jobs := by
      rw [List.length_replicate, split, List.getElem?_append_right (Nat.le_refl _), Nat.sub_self]
      rfl
    have hpre : (pre ++ [jobs]).length = pre.length + 1 := List.length_append
    have hlaunch := launch hnext (by
      rw [← List.replicate_succ', ← hpre]
      exact htail)
    rw [List.length_replicate] at hlaunch
    rw [List.mapIdx_cons, List.flatten_cons, List.append_assoc]
    simpa [Nat.add_comm 1, Nat.add_assoc] using hlaunch

section
variable {pre post : List Standing}

lemma join (threads : pre.length + 1 + post.length = plan.threads)
    (launched : ∀ s ∈ pre ++ post, s.launch = .announced)
    (ends : closed = true ∨ plan.consumers ≤ pre.length)
    (rest : Ahead plan (pre ++ .joined :: post) closed chores) :
    Ahead plan (pre ++ .held :: post) closed (Plan.join pre.length ++ chores) := by
  have hat : ∀ s : Standing, (pre ++ s :: post)[pre.length]? = some s := by simp
  have hset : ∀ s t : Standing, (pre ++ s :: post).set pre.length t = pre ++ t :: post := by simp
  refine .act (hat _) (.join 0) ?_
  rw [hset]
  refine .collect (hat _) ?_ ?_ ?_ ?_
  · rw [List.length_append, List.length_cons]
    omega
  · intro s hs
    rcases List.mem_append.mp hs with hs | hs
    · exact launched s (List.mem_append_left _ hs)
    · rcases List.mem_cons.mp hs with rfl | hs
      · rfl
      · exact launched s (List.mem_append_right _ hs)
  · intro hconsumer
    exact ends.resolve_right (Nat.not_le.mpr hconsumer)
  · rw [hset]
    exact rest

/-- The threads of a range are joined one after the other. -/
lemma joins (pre post : List Standing) (n : Nat)
    (threads : pre.length + n + post.length = plan.threads)
    (launched : ∀ s ∈ pre ++ post, s.launch = .announced)
    (ends : closed = true ∨ plan.consumers ≤ pre.length)
    (rest : Ahead plan (pre ++ (List.replicate n .joined ++ post)) closed chores) :
    Ahead plan (pre ++ (List.replicate n .held ++ post)) closed
      ((List.range' pre.length n).flatMap Plan.join ++ chores) := by
  induction n generalizing pre with
  | zero => exact rest
  | succ n ih =>
    have hpre : (pre ++ [Standing.joined]).length = pre.length + 1 := List.length_append
    rw [List.range'_succ, List.flatMap_cons, List.append_assoc, List.replicate_succ,
      List.cons_append]
    apply join
    · simp only [List.length_append, List.length_replicate]
      omega
    · intro s hs
      simp only [List.mem_append, List.mem_replicate] at hs
      rcases hs with hs | ⟨-, hs⟩ | hs
      · exact launched s (List.mem_append_left _ hs)
      · rw [hs]
        rfl
      · exact launched s (List.mem_append_right _ hs)
    · exact ends
    · rw [← hpre, List.append_cons]
      apply ih (pre ++ [Standing.joined])
      · omega
      · intro s hs
        simp only [List.mem_append, List.mem_singleton] at hs
        rcases hs with (hs | hs) | hs
        · exact launched s (List.mem_append_left _ hs)
        · rw [hs]
          rfl
        · exact launched s (List.mem_append_right _ hs)
      · rw [hpre]
        exact ends.imp_right fun h => Nat.le_succ_of_le h
      · rw [List.append_assoc]
        exact rest

end

end Ahead

/-- All chores of a plan fit before any of them is done. -/
theorem ahead_chores (plan : Plan) : Ahead plan [] false plan.chores := by
  have hthreads : plan.threads = plan.consumers + plan.producers.length := rfl
  have finish : Ahead plan (List.replicate plan.threads .joined) true [] := by
    refine .done (by simp) fun s hs => ?_
    exact List.eq_of_mem_replicate hs
  have consumers : Ahead plan (List.replicate plan.consumers .held ++
      List.replicate plan.producers.length .joined) true
      ((List.range plan.consumers).flatMap Plan.join ++ []) := by
    rw [List.range_eq_range']
    refine Ahead.joins [] _ plan.consumers (by simp [hthreads]) (fun s hs => ?_) (.inl rfl) ?_
    · rw [List.eq_of_mem_replicate hs]
      rfl
    · rw [List.nil_append, List.replicate_append_replicate, ← hthreads]
      exact finish
  have producers : Ahead plan (List.replicate plan.threads .held) false
      ((List.range' plan.consumers plan.producers.length).flatMap Plan.join ++
        .close :: ((List.range plan.consumers).flatMap Plan.join ++ [])) := by
    have hboard : List.replicate plan.threads Standing.held =
        List.replicate plan.consumers .held ++
          (List.replicate plan.producers.length .held ++ []) := by
      rw [List.append_nil, List.replicate_append_replicate, hthreads]
    have hrange : List.range' plan.consumers plan.producers.length =
        List.range' (List.replicate plan.consumers Standing.held).length plan.producers.length := by
      rw [List.length_replicate]
    rw [hboard, hrange]
    refine Ahead.joins _ [] _ (by simp [hthreads]) (fun s hs => ?_) (.inr (by simp)) ?_
    · rw [List.append_nil] at hs
      rw [List.eq_of_mem_replicate hs]
      rfl
    · rw [List.append_nil]
      refine .close (fun who s hwho hs => ?_) consumers
      rw [List.getElem?_append_right (by simpa using hwho)] at hs
      exact List.eq_of_mem_replicate (List.mem_of_getElem? hs)
  have launches := Ahead.launches [] plan.jobs rfl producers
  simpa [Plan.chores, List.range_eq_range'] using launches

end Pipeline
end Strand
