import Strand.Proofs.Pipeline.Parts
import Strand.Proofs.Pipeline.Staff

/-! No run of a pipeline gets stuck. The main thread can only be held up at the end of a join. If
the worker that it waits for cannot go on either, it is parked on the open channel, so it is a
producer and the channel is full; but then a consumer, which has met no end, has a value to take. -/
namespace Strand.Pipeline
open History Worker

variable {plan : Plan} {p q : Pipeline} {m : Move}

/-- All that a move can do. -/
inductive Moved (p : Pipeline) : Move → Pipeline → Prop
  | request {jobs chores} (next : p.chores = .request jobs :: chores) :
      Moved p .main ⟨p.crew.request .joinable, p.crowd.call jobs, chores⟩
  | act {a crew report chores} (next : p.chores = .act a :: chores)
      (step : p.crew.step a = some (crew, report)) : Moved p .main ⟨crew, p.crowd, chores⟩
  | close {chores} (next : p.chores = .close :: chores) :
      Moved p .main ⟨p.crew, p.crowd.close.2.1, chores⟩
  | lives {who pick w caller deed crew report} (worker : p.crew.workers[who]? = some w)
      (mate : p.crowd.callers[who]? = some caller) (due : Due w caller deed)
      (step : p.crew.step (.worker who deed) = some (crew, report)) :
      Moved p (.worker who pick) ⟨crew, p.crowd, p.chores⟩
  | turn {who pick w caller crowd events} (worker : p.crew.workers[who]? = some w)
      (mate : p.crowd.callers[who]? = some caller) (body : w.body = .working)
      (unfinished : caller.isFinished = false)
      (step : p.crowd.turn who pick = some (crowd, events)) :
      Moved p (.worker who pick) ⟨p.crew, crowd, p.chores⟩

theorem step_iff {m : Move} : p.step m = some q ↔ Moved p m q := by
  constructor
  · intro h
    cases m with
    | main =>
      rw [step, mainMove] at h
      split at h
      · cases h
      next next =>
        cases h
        exact .request next
      next next =>
        obtain ⟨⟨crew, report⟩, taken, rfl⟩ := Option.map_eq_some_iff.mp h
        exact .act next taken
      next next =>
        cases h
        exact .close next
    | worker who pick =>
      rw [step, workerMove] at h
      split at h
      next w caller hw hcaller =>
        split at h
        next hbody =>
          obtain ⟨⟨crew, report⟩, taken, rfl⟩ := Option.map_eq_some_iff.mp h
          exact .lives hw hcaller (.begin hbody) taken
        next hbody =>
          split at h
          next hfinished =>
            obtain ⟨⟨crew, report⟩, taken, rfl⟩ := Option.map_eq_some_iff.mp h
            exact .lives hw hcaller (.stop hbody hfinished) taken
          next hunfinished =>
            obtain ⟨⟨crowd, events⟩, taken, rfl⟩ := Option.map_eq_some_iff.mp h
            exact .turn hw hcaller hbody (Bool.eq_false_of_not_eq_true hunfinished) taken
        next ending hbody =>
          obtain ⟨⟨crew, report⟩, taken, rfl⟩ := Option.map_eq_some_iff.mp h
          exact .lives hw hcaller (.leave hbody) taken
        · cases h
      · cases h
  · intro h
    cases h with
    | request next => simp [step, mainMove, next]
    | act next taken => simp [step, mainMove, next, taken]
    | close next => simp [step, mainMove, next]
    | lives worker mate due taken =>
      cases due with
      | begin body => simp [step, workerMove, worker, mate, body, taken]
      | stop body finished => simp [step, workerMove, worker, mate, body, finished, taken]
      | leave body => simp [step, workerMove, worker, mate, body, taken]
    | turn worker mate body unfinished taken =>
      simp [step, workerMove, worker, mate, body, unfinished, taken]

/-- What holds of a pipeline at every moment. -/
structure Sound (plan : Plan) (p : Pipeline) : Prop where
  staffed : Staffed p.crew p.crowd.callers
  playing : ∃ history, Playing plan history p.crowd
  ahead : Ahead plan (p.crew.workers.map standing) p.crowd.shared.channel.closed p.chores

namespace Sound

lemma start (plan : Plan) : Sound plan (ofPlan plan) where
  staffed := Staffed.start
  playing := ⟨[], Playing.start plan⟩
  ahead := ahead_chores plan

/-- The worker and the caller at a position of the board. -/
lemma exists_pair (sound : Sound plan p) {who : Nat} {s : Standing}
    (stands : (p.crew.workers.map standing)[who]? = some s) :
    ∃ w caller, p.crew.workers[who]? = some w ∧ p.crowd.callers[who]? = some caller ∧
      w.standing = s ∧ Paired w caller := by
  rw [List.getElem?_map, Option.map_eq_some_iff] at stands
  obtain ⟨w, hw, hs⟩ := stands
  obtain ⟨caller, hcaller⟩ := sound.staffed.exists_caller hw
  exact ⟨w, caller, hw, hcaller, hs, sound.staffed.paired who w caller hw hcaller⟩

/-- When the producers have been joined, nobody has anything left to send. -/
lemma unsent (sound : Sound plan p)
    (joined : ∀ who s, plan.consumers ≤ who → (p.crew.workers.map standing)[who]? = some s →
      s = .joined) :
    ∀ caller ∈ p.crowd.callers, caller.offer? = none := by
  intro caller hmem
  obtain ⟨who, hcaller⟩ := List.mem_iff_getElem?.mp hmem
  rcases Nat.lt_or_ge who plan.consumers with hlt | hge
  · obtain ⟨history, playing⟩ := sound.playing
    exact (playing.parts who caller hcaller).offer_eq_none hlt
  · obtain ⟨w, hw⟩ := sound.staffed.exists_worker hcaller
    have hspent := joined who w.standing hge (by rw [List.getElem?_map, hw]; rfl)
    have paired := sound.staffed.paired who w caller hw hcaller
    have hover := paired.waited (congrArg Standing.claim hspent)
    exact Plays.offer_eq_none_of_finished (sound.staffed.finished hw hcaller hover)

section
variable {who : Nat} {w : Worker} {caller : Caller Parcel} {deed : Crew.Deed} {t : Standing}
  {change : Crew.Change} {crew : Crew} {report : Crew.Report} {chores : List Chore}

/-- A deed that brings its worker to the standing `t` leaves what fits then. -/
lemma work (sound : Sound plan p) (hw : p.crew.workers[who]? = some w)
    (hcaller : p.crowd.callers[who]? = some caller)
    (taken : Crew.change? who (p.crew.nameOf who) w p.crew.stats deed = some change)
    (advances : Advances w caller p.crew.stats t change)
    (step : p.crew.step (.worker who deed) = some (crew, report))
    (rest : Ahead plan ((p.crew.workers.map standing).set who t) p.crowd.shared.channel.closed
      chores) :
    Sound plan ⟨crew, p.crowd, chores⟩ := by
  obtain ⟨staffed, hafter⟩ := sound.staffed.work hw hcaller taken advances step
  refine ⟨staffed, sound.playing, ?_⟩
  rw [hafter]
  exact rest

lemma request (sound : Sound plan p) {jobs : List (Job Parcel)}
    (next : p.chores = .request jobs :: chores) :
    Sound plan ⟨p.crew.request .joinable, p.crowd.call jobs, chores⟩ := by
  obtain ⟨history, playing⟩ := sound.playing
  have ahead := sound.ahead
  rw [next] at ahead
  generalize hclosed : p.crowd.shared.channel.closed = closed at ahead
  cases ahead with
  | request hjobs rest =>
    rw [List.length_map, sound.staffed.length_eq] at hjobs
    refine ⟨sound.staffed.request _, ⟨_, playing.call hclosed hjobs⟩, ?_⟩
    have hafter : (p.crew.request .joinable).workers.map standing =
        p.crew.workers.map standing ++ [.requested] := List.map_append
    have hopen : (p.crowd.call jobs).shared.channel.closed = false := hclosed
    rw [hafter, hopen]
    exact rest

lemma act (sound : Sound plan p) {a : Crew.Action} (next : p.chores = .act a :: chores)
    (step : p.crew.step a = some (crew, report)) : Sound plan ⟨crew, p.crowd, chores⟩ := by
  have ahead := sound.ahead
  rw [next] at ahead
  generalize hclosed : p.crowd.shared.channel.closed = closed at ahead
  cases ahead with
  | act stands moves rest =>
    obtain ⟨w, caller, hw, hcaller, rfl, paired⟩ := sound.exists_pair stands
    obtain ⟨change, taken, advances⟩ := paired.moves moves
    exact sound.work hw hcaller taken advances step (hclosed ▸ rest)
  | collect stands threads launched ends rest =>
    obtain ⟨w, caller, hw, hcaller, joining, paired⟩ := sound.exists_pair stands
    obtain ⟨v, change, hv, hchange, -⟩ := Crew.step_worker step
    obtain rfl : w = v := Option.some.inj (hw.symm.trans hv)
    obtain ⟨change, taken, advances⟩ := paired.collect joining (isFinished_of_collect hchange)
    exact sound.work hw hcaller taken advances step (hclosed ▸ rest)

lemma close (sound : Sound plan p) (next : p.chores = .close :: chores) :
    Sound plan ⟨p.crew, p.crowd.close.2.1, chores⟩ := by
  obtain ⟨history, playing⟩ := sound.playing
  have ahead := sound.ahead
  rw [next] at ahead
  generalize p.crowd.shared.channel.closed = closed at ahead
  cases ahead with
  | close joined rest => exact ⟨sound.staffed, ⟨_, playing.close (sound.unsent joined)⟩, rest⟩

end

theorem move (sound : Sound plan p) (h : Moved p m q) : Sound plan q := by
  cases h with
  | request next => exact sound.request next
  | act next step => exact sound.act next step
  | close next => exact sound.close next
  | @lives who pick w caller deed crew report worker mate due step =>
    obtain ⟨change, taken, advances⟩ := (sound.staffed.paired who w caller worker mate).due due
    have hstanding : (p.crew.workers.map standing)[who]? = some w.standing := by
      rw [List.getElem?_map, worker]
      rfl
    refine sound.work worker mate taken advances step ?_
    rw [set_eq_self hstanding]
    exact sound.ahead
  | turn worker mate body unfinished step =>
    obtain ⟨history, playing⟩ := sound.playing
    have playing' := playing.turn step
    obtain ⟨caller, s, caller', ys, hcaller, -, -, hturned, rfl⟩ :=
      Crowd.turn_cases playing.run.books.holds step
    refine ⟨sound.staffed.turn worker body mate caller', ⟨_, playing'⟩, ?_⟩
    rw [hturned.closed_eq]
    exact sound.ahead

/-- What a worker is due to do is possible. -/
lemma exists_step_of_due (sound : Sound plan p) {who : Nat} {w : Worker} {caller : Caller Parcel}
    {deed : Crew.Deed} (hw : p.crew.workers[who]? = some w)
    (hcaller : p.crowd.callers[who]? = some caller) (due : Due w caller deed) :
    ∃ q, p.step (.worker who 0) = some q := by
  obtain ⟨change, taken, -⟩ := (sound.staffed.paired who w caller hw hcaller).due due
  obtain ⟨crew, report, step⟩ := Crew.exists_step_of_change hw taken
  exact ⟨_, step_iff.mpr (.lives hw hcaller due step)⟩

section
variable (sound : Sound plan p) (idle : ∀ who pick, p.step (.worker who pick) = none)
include sound idle

/-- A worker that has been started and cannot go on is over, or it is at work and not done. -/
lemma busy {who : Nat} {w : Worker} {caller : Caller Parcel} (launched : w.launch = .announced)
    (hw : p.crew.workers[who]? = some w) (hcaller : p.crowd.callers[who]? = some caller) :
    w.isFinished = true ∨ (w.body = .working ∧ caller.isFinished = false) := by
  have hdue : ∀ deed, ¬Due w caller deed := by
    intro deed due
    obtain ⟨q, step⟩ := sound.exists_step_of_due hw hcaller due
    rw [idle] at step
    cases step
  obtain ⟨reports, run⟩ := sound.staffed.run
  have unborn := (run.ledger.sound w (List.mem_of_getElem? hw)).unborn
  rcases hbody : w.body with _ | _ | _ | ending | ending
  · simp [hbody, launched] at unborn
  · exact absurd (.begin hbody) (hdue _)
  · refine .inr ⟨rfl, Bool.eq_false_of_not_eq_true fun hfinished => ?_⟩
    exact hdue _ (.stop hbody hfinished)
  · exact absurd (.leave hbody) (hdue _)
  · left
    rw [isFinished, hbody]

/-- If no worker can go on, nobody has a turn on the channel. -/
lemma no_turn (launched : ∀ w ∈ p.crew.workers, w.launch = .announced) (who pick : Nat) :
    p.crowd.turn who pick = none := by
  by_contra hsome
  obtain ⟨⟨crowd, events⟩, step⟩ := Option.ne_none_iff_exists'.mp hsome
  obtain ⟨history, playing⟩ := sound.playing
  obtain ⟨caller, -, -, -, hcaller, hunfinished, -⟩ :=
    Crowd.turn_cases playing.run.books.holds step
  obtain ⟨w, hw⟩ := sound.staffed.exists_worker hcaller
  rcases sound.busy idle (launched w (List.mem_of_getElem? hw)) hw hcaller with hover | ⟨hbody, -⟩
  · rw [sound.staffed.finished hw hcaller hover] at hunfinished
    cases hunfinished
  · have hmove := step_iff.mpr (.turn hw hcaller hbody hunfinished step)
    rw [idle] at hmove
    cases hmove

/-- Where no worker can go on, those that a join may wait for are over. -/
lemma over_of_idle (consumers : 0 < plan.consumers)
    (launched : ∀ w ∈ p.crew.workers, w.launch = .announced)
    (threads : p.crew.workers.length = plan.threads) {who : Nat} {w : Worker}
    (hw : p.crew.workers[who]? = some w)
    (ends : who < plan.consumers → p.crowd.shared.channel.closed = true) :
    w.isFinished = true := by
  obtain ⟨history, playing⟩ := sound.playing
  obtain ⟨caller, hcaller⟩ := sound.staffed.exists_caller hw
  have atRest := playing.run.atRest (sound.no_turn idle launched)
  rcases sound.busy idle (launched w (List.mem_of_getElem? hw)) hw hcaller with
    hover | ⟨-, hunfinished⟩
  · exact hover
  exfalso
  have hparked := (atRest.others who _ hcaller).resolve_left (by rw [hunfinished]; decide)
  have hopen : p.crowd.shared.channel.closed = false := by
    by_contra hclosed
    rw [playing.run.orderly.closed (Bool.eq_true_of_not_eq_false hclosed)] at hparked
    cases hparked
  -- The one that is waited for is a producer, which is parked on the full channel.
  have hsender : who ∈ p.crowd.shared.senders := by
    have hrole : plan.consumers ≤ who := by
      by_contra hlt
      rw [ends (Nat.lt_of_not_le hlt)] at hopen
      cases hopen
    have hoffer := (playing.parts who caller hcaller).offer_isSome hrole hunfinished
    exact (atRest.sender who).mp ⟨caller, hcaller, hoffer⟩
  -- The first consumer has met no end, so it is parked on the empty channel.
  have hreceiver : 0 ∈ p.crowd.shared.receivers := by
    have hfirst : 0 < p.crowd.callers.length := by
      rw [← sound.staffed.length_eq, threads, Plan.threads]
      omega
    have hconsumer := List.getElem?_eq_getElem hfirst
    have hreceiving := (playing.parts 0 _ hconsumer).isReceiving consumers fun hend => by
      rw [(playing.run.empty_after_end (mem_of_deedsOf hend)).1] at hopen
      cases hopen
    exact (atRest.receiver 0).mp ⟨_, hconsumer, hreceiving⟩
  rcases atRest.one_kind with hnone | hnone
  · rw [hnone] at hsender
    cases hsender
  · rw [hnone] at hreceiver
    cases hreceiver

end

/-- Short of completion, the main thread or a worker can go on. -/
theorem exists_move (sound : Sound plan p) (consumers : 0 < plan.consumers)
    (h : p.isComplete = false) : ∃ m q, p.step m = some q := by
  have ahead := sound.ahead
  generalize hboard : p.crew.workers.map standing = board at ahead
  generalize hclosed : p.crowd.shared.channel.closed = closed at ahead
  generalize hchores : p.chores = chores at ahead
  cases ahead with
  | done =>
    rw [isComplete, hchores] at h
    cases h
  | request => exact ⟨.main, _, step_iff.mpr (.request hchores)⟩
  | close => exact ⟨.main, _, step_iff.mpr (.close hchores)⟩
  | act stands moves =>
    rw [← hboard] at stands
    obtain ⟨w, caller, hw, -, rfl, paired⟩ := sound.exists_pair stands
    obtain ⟨change, taken, -⟩ := paired.moves moves
    obtain ⟨crew, report, step⟩ := Crew.exists_step_of_change hw taken
    exact ⟨.main, _, step_iff.mpr (.act hchores step)⟩
  | collect stands threads launched ends =>
    rw [← hboard] at stands
    obtain ⟨w, caller, hw, -, hstanding, paired⟩ := sound.exists_pair stands
    by_contra hstuck
    have idle : ∀ who pick, p.step (.worker who pick) = none := by
      intro who pick
      by_contra hsome
      obtain ⟨q, step⟩ := Option.ne_none_iff_exists'.mp hsome
      exact hstuck ⟨_, q, step⟩
    have hover : w.isFinished = true := by
      apply sound.over_of_idle idle consumers _ _ hw
      · rw [hclosed]
        exact ends
      · intro v hv
        apply launched v.standing
        rw [← hboard]
        exact List.mem_map_of_mem hv
      · rw [← List.length_map standing, hboard]
        exact threads
    obtain ⟨change, taken, -⟩ := paired.collect hstanding hover
    obtain ⟨crew, report, step⟩ := Crew.exists_step_of_change hw taken
    exact hstuck ⟨.main, _, step_iff.mpr (.act hchores step)⟩

end Sound

/-- The pipelines that a plan can bring about under any schedule, after so many moves. -/
inductive Run (plan : Plan) : Nat → Pipeline → Prop
  | start : Run plan 0 (ofPlan plan)
  | move {n p q} (run : Run plan n p) (m : Move) (taken : p.step m = some q) : Run plan (n + 1) q

theorem Run.sound {n : Nat} (run : Run plan n p) : Sound plan p := by
  induction run with
  | start => exact Sound.start plan
  | move _ m taken ih => exact ih.move (step_iff.mp taken)

end Strand.Pipeline
