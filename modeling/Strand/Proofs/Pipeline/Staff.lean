import Strand.Proofs.Crew.Counters
import Strand.Proofs.Pipeline.Chores

/-! The crew of a pipeline. A worker is in step with the caller at its position: it stops only when
the caller is done, and its handle is spent only when it is over. Every deed that the main thread
or the worker itself is due to do is possible, apart from the end of a join, which has to wait. -/
namespace Strand

/-- Whether the handle of the worker has been spent. -/
def Worker.isSpent (w : Worker) : Bool := w.claim = .spent

namespace Pipeline
open Worker

/-- What a worker is due to do apart from its turns on the channel. -/
inductive Due (w : Worker) (caller : Caller Parcel) : Crew.Deed → Prop
  | begin (body : w.body = .waiting) : Due w caller .begin
  | stop (body : w.body = .working) (finished : caller.isFinished = true) :
      Due w caller (.stop .returned)
  | leave {ending} (body : w.body = .stopped ending) : Due w caller .leave

/-- A worker is in step with the caller at its position. -/
structure Paired (w : Worker) (caller : Caller Parcel) : Prop where
  mode : w.mode = .joinable
  /-- The work ends only when the caller is done, and it does not panic. -/
  returned : ∀ ending, w.body = .stopped ending ∨ w.body = .over ending →
    ending = .returned ∧ caller.isFinished = true
  /-- A join that has come to its end has waited for the worker. -/
  waited : w.claim = .spent → w.isFinished = true

/-- What a deed comes to that brings a worker to the standing `t`. -/
structure Advances (w : Worker) (caller : Caller Parcel) (stats : CrewStats) (t : Standing)
    (change : Crew.Change) : Prop where
  standing : change.worker.standing = t
  paired : Paired change.worker caller
  joined : change.stats.joined + w.isSpent.toNat = stats.joined + change.worker.isSpent.toNat

section
variable {w : Worker} {caller : Caller Parcel} {stats : CrewStats} {t : Standing} {who : Nat}
  {name : String} {deed : Crew.Deed}

lemma Paired.requested (caller : Caller Parcel) :
    Paired ⟨.joinable, .requested, .unborn, .none⟩ caller where
  mode := rfl
  returned _ h := by rcases h with h | h <;> cases h
  waited h := by cases h

/-- The main thread is never held up at a chore before the end of a join. -/
lemma Paired.moves (paired : Paired w caller) (moves : w.standing.Moves deed t) :
    ∃ change, Crew.change? who name w stats deed = some change ∧
      Advances w caller stats t change := by
  obtain ⟨mode, launch, body, claim⟩ := w
  obtain rfl : mode = .joinable := paired.mode
  generalize hs : standing _ = s at moves
  cases moves <;> cases hs
  · refine ⟨_, rfl, rfl, ⟨rfl, fun ending h => ?_, fun h => ?_⟩, rfl⟩
    · rcases h with h | h <;> cases h
    · cases h
  · exact ⟨_, rfl, rfl, ⟨rfl, paired.returned, fun h => by cases h⟩, rfl⟩
  · exact ⟨_, rfl, rfl, ⟨rfl, paired.returned, fun h => by cases h⟩, rfl⟩
  · exact ⟨_, rfl, rfl, ⟨rfl, paired.returned, fun h => by cases h⟩, rfl⟩

/-- A join ends with a worker that is over. -/
lemma Paired.collect (paired : Paired w caller) (joining : w.standing = .joining)
    (finished : w.isFinished = true) :
    ∃ change, Crew.change? who name w stats .collect = some change ∧
      Advances w caller stats .joined change := by
  obtain ⟨mode, launch, body, claim⟩ := w
  cases joining
  obtain rfl : mode = .joinable := paired.mode
  rw [isFinished] at finished
  split at finished
  next ending hbody =>
    cases hbody
    exact ⟨_, rfl, rfl, ⟨rfl, paired.returned, fun _ => rfl⟩, rfl⟩
  · cases finished

lemma isFinished_of_collect {change : Crew.Change}
    (h : Crew.change? who name w stats .collect = some change) : w.isFinished = true := by
  rw [Crew.change?] at h
  split at h
  · split at h
    next ending hbody => rw [isFinished, hbody]
    · cases h
  · cases h

lemma Paired.due (paired : Paired w caller) (due : Due w caller deed) :
    ∃ change, Crew.change? who name w stats deed = some change ∧
      Advances w caller stats w.standing change := by
  obtain ⟨mode, launch, body, claim⟩ := w
  have hwaited := paired.waited
  cases due with
  | begin hbody =>
    cases hbody
    refine ⟨_, rfl, rfl, ⟨paired.mode, fun ending h => ?_, fun h => ?_⟩, rfl⟩
    · rcases h with h | h <;> cases h
    · cases hwaited h
  | stop hbody finished =>
    cases hbody
    refine ⟨_, rfl, rfl, ⟨paired.mode, fun ending h => ?_, fun h => ?_⟩, rfl⟩
    · rcases h with h | h <;> cases h
      exact ⟨rfl, finished⟩
    · cases hwaited h
  | @leave ending hbody =>
    cases hbody
    refine ⟨_, rfl, rfl, ⟨paired.mode, fun other h => ?_, fun _ => rfl⟩, rfl⟩
    rcases h with h | h <;> cases h
    exact paired.returned ending (.inl rfl)

end

/-- The crew is in step with the callers. -/
structure Staffed (crew : Crew) (callers : List (Caller Parcel)) : Prop where
  run : ∃ reports, Crew.Run .defaults reports crew
  length_eq : crew.workers.length = callers.length
  paired : ∀ (who : Nat) (w : Worker) (caller : Caller Parcel), crew.workers[who]? = some w →
    callers[who]? = some caller → Paired w caller
  joined : crew.stats.joined = crew.workers.countP isSpent

namespace Staffed
variable {crew crew' : Crew} {callers : List (Caller Parcel)} {w : Worker} {caller : Caller Parcel}
  {who : Nat} {deed : Crew.Deed} {t : Standing} {change : Crew.Change} {report : Crew.Report}

lemma start : Staffed (Crew.ofSettings .defaults) [] where
  run := ⟨[], .start⟩
  length_eq := rfl
  paired who w caller hw := by cases hw
  joined := rfl

lemma request (staffed : Staffed crew callers) (caller : Caller Parcel) :
    Staffed (crew.request .joinable) (callers ++ [caller]) where
  run := by
    obtain ⟨reports, run⟩ := staffed.run
    exact ⟨_, run.step (.request .joinable) rfl⟩
  length_eq := by simp [Crew.request, staffed.length_eq]
  paired who w other hw hother := by
    have hlength := staffed.length_eq
    rcases Nat.lt_or_ge who crew.workers.length with hlt | hge
    · rw [Crew.request, List.getElem?_append_left hlt] at hw
      rw [List.getElem?_append_left (hlength ▸ hlt)] at hother
      exact staffed.paired who w other hw hother
    · rw [Crew.request, List.getElem?_append_right hge] at hw
      obtain rfl := List.mem_singleton.mp (List.mem_of_getElem? hw)
      exact Paired.requested other
  joined := by
    rw [Crew.request, countP_concat]
    exact staffed.joined

/-- A deed changes one worker, and the standing of that worker only. -/
lemma work (staffed : Staffed crew callers) (hw : crew.workers[who]? = some w)
    (hcaller : callers[who]? = some caller)
    (taken : Crew.change? who (crew.nameOf who) w crew.stats deed = some change)
    (advances : Advances w caller crew.stats t change)
    (step : crew.step (.worker who deed) = some (crew', report)) :
    Staffed crew' callers ∧
      crew'.workers.map standing = (crew.workers.map standing).set who t := by
  obtain ⟨v, change', hv, hchange, hworkers, hstats, rfl⟩ := Crew.step_worker step
  rw [hw] at hv
  cases hv
  rw [taken] at hchange
  cases hchange
  refine ⟨⟨?_, ?_, fun k v other hv hother => ?_, ?_⟩, ?_⟩
  · obtain ⟨reports, run⟩ := staffed.run
    exact ⟨_, run.step (.worker who deed) step⟩
  · rw [hworkers, List.length_set]
    exact staffed.length_eq
  · rw [hworkers] at hv
    by_cases hk : who = k
    · subst hk
      rw [List.getElem?_set_self (List.getElem?_eq_some_iff.mp hw).1] at hv
      rw [hcaller] at hother
      cases hv
      cases hother
      exact advances.paired
    · rw [List.getElem?_set_ne hk] at hv
      exact staffed.paired k v other hv hother
  · have hcount := countP_set_toNat (p := isSpent) hw change.worker
    have hjoined := advances.joined
    have hbefore := staffed.joined
    rw [hworkers, hstats]
    omega
  · rw [hworkers, List.map_set, advances.standing]

/-- A worker that is at work may take turns. -/
lemma turn (staffed : Staffed crew callers) (hw : crew.workers[who]? = some w)
    (body : w.body = .working) (hcaller : callers[who]? = some caller) (caller' : Caller Parcel) :
    Staffed crew (callers.set who caller') where
  run := staffed.run
  length_eq := by rw [List.length_set, staffed.length_eq]
  paired k v other hv hother := by
    by_cases hk : who = k
    · subst hk
      rw [hw] at hv
      cases hv
      have paired := staffed.paired who w caller hw hcaller
      refine ⟨paired.mode, fun ending h => ?_, paired.waited⟩
      rw [body] at h
      rcases h with h | h <;> cases h
    · rw [List.getElem?_set_ne hk] at hother
      exact staffed.paired k v other hv hother
  joined := staffed.joined

lemma exists_worker (staffed : Staffed crew callers) (hcaller : callers[who]? = some caller) :
    ∃ w, crew.workers[who]? = some w := by
  have hlt := (List.getElem?_eq_some_iff.mp hcaller).1
  rw [← staffed.length_eq] at hlt
  exact ⟨_, List.getElem?_eq_getElem hlt⟩

lemma exists_caller (staffed : Staffed crew callers) (hw : crew.workers[who]? = some w) :
    ∃ caller, callers[who]? = some caller := by
  have hlt := (List.getElem?_eq_some_iff.mp hw).1
  rw [staffed.length_eq] at hlt
  exact ⟨_, List.getElem?_eq_getElem hlt⟩

/-- Workers that are over have callers that are done. -/
lemma finished (staffed : Staffed crew callers) (hw : crew.workers[who]? = some w)
    (hcaller : callers[who]? = some caller) (h : w.isFinished = true) :
    caller.isFinished = true := by
  rw [isFinished] at h
  split at h
  next ending hbody =>
    exact ((staffed.paired who w caller hw hcaller).returned ending (.inr hbody)).2
  · cases h

end Staffed

end Pipeline
end Strand
