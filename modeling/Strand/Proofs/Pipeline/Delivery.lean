import Strand.Proofs.Pipeline.Effort

/-! What a complete run of a pipeline comes to. All threads are over and joined, so the consumers
have met the end of the channel and have taken all that the producers have sent: every value as
often as it was sent, and the values of each producer in their order. -/
namespace Strand.Pipeline
open History Worker

variable {plan : Plan} {p : Pipeline}

namespace Playing
variable {history : List (Occurrence Parcel)} {crowd : Crowd Parcel}

/-- Whose deeds yield something is a thread with a part. -/
lemma exists_caller (playing : Playing plan history crowd) {β : Type} {f : Deed Parcel → Option β}
    {who : Nat} {value : β} (h : (who, value) ∈ select f history) :
    ∃ caller, crowd.callers[who]? = some caller ∧ Plays plan who caller (deedsOf who history) ∧
      value ∈ (deedsOf who history).filterMap f := by
  rw [mem_select] at h
  have hlt : who < crowd.callers.length := by
    by_contra hge
    rw [playing.run.accounts.stranger who (Nat.le_of_not_lt hge)] at h
    cases h
  have hcaller := List.getElem?_eq_getElem hlt
  exact ⟨_, hcaller, playing.parts who _ hcaller, h⟩

/-- No value comes back to its sender. -/
lemma rejected_eq (playing : Playing plan history crowd) : rejected history = [] := by
  refine List.eq_nil_iff_forall_not_mem.mpr ?_
  rintro ⟨who, value⟩ hmem
  obtain ⟨caller, -, plays, hvalue⟩ := playing.exists_caller hmem
  rw [plays.rejected_eq] at hvalue
  cases hvalue

section
variable (playing : Playing plan history crowd) (threads : crowd.callers.length = plan.threads)
  (finished : ∀ caller ∈ crowd.callers, caller.isFinished = true)
include playing threads finished

/-- What was accepted from a producer are its values in order. -/
lemma accepted_of_producer (producer : Nat) :
    ((accepted history).map Prod.snd).filter (fun parcel => parcel.producer = producer) =
      plan.parcelsOf producer := by
  have hfilter : (accepted history).filter
        ((fun parcel : Parcel => decide (parcel.producer = producer)) ∘ Prod.snd) =
      (accepted history).filter fun entry => entry.1 = plan.consumers + producer := by
    refine List.filter_congr ?_
    rintro ⟨who, parcel⟩ hmem
    obtain ⟨caller, -, plays, hparcel⟩ := playing.exists_caller hmem
    have hrole := (plays.role_of_accepted hparcel).1
    simp only [Function.comp_apply, decide_eq_decide]
    omega
  rw [List.filter_map, hfilter, accepted, ← filterMap_deedsOf]
  rcases Nat.lt_or_ge (plan.consumers + producer) crowd.callers.length with hlt | hge
  · have hcaller := List.getElem?_eq_getElem hlt
    exact (playing.parts _ _ hcaller).accepted_eq (finished _ (List.getElem_mem hlt)) rfl
  · rw [playing.run.accounts.stranger _ hge]
    have hnone : plan.producers[producer]? = none := by
      apply List.getElem?_eq_none
      rw [threads, Plan.threads] at hge
      omega
    rw [Plan.parcelsOf, hnone]
    rfl

/-- What was accepted is all that was to be sent. -/
lemma accepted_perm : ((accepted history).map Prod.snd).Perm plan.parcels := by
  have hbound : ∀ parcel ∈ (accepted history).map Prod.snd,
      parcel.producer < plan.producers.length := by
    intro parcel hmem
    obtain ⟨⟨who, parcel⟩, hentry, rfl⟩ := List.mem_map.mp hmem
    obtain ⟨caller, -, plays, hparcel⟩ := playing.exists_caller hentry
    exact (plays.role_of_accepted hparcel).2
  have hparts := flatMap_filter_perm hbound
  have hproducers := playing.accepted_of_producer threads finished
  simp only [hproducers] at hparts
  exact hparts.symm

omit threads in
/-- What a consumer has collected are the values that were handed out to it. -/
lemma collection_eq {who : Nat} {caller : Caller Parcel} (role : who < plan.consumers)
    (hcaller : crowd.callers[who]? = some caller) :
    collection caller =
      ((delivered history).filter fun entry => entry.1 = who).map Prod.snd := by
  rw [delivered, ← filterMap_deedsOf]
  exact ((playing.parts who caller hcaller).collection_eq
    (finished caller (List.mem_of_getElem? hcaller)) role).1

/-- The consumers have together collected all that was handed out. -/
lemma collected_perm :
    ((crowd.callers.take plan.consumers).flatMap collection).Perm
      ((delivered history).map Prod.snd) := by
  have hle : plan.consumers ≤ crowd.callers.length := by
    rw [threads, Plan.threads]
    exact Nat.le_add_right _ _
  have hmap : (crowd.callers.take plan.consumers).map collection =
      (List.range plan.consumers).map fun who =>
        ((delivered history).filter fun entry => entry.1 = who).map Prod.snd := by
    apply List.ext_getElem
    · simp [hle]
    · intro who hwho _
      simp only [List.length_map, List.length_take] at hwho
      have hlt : who < crowd.callers.length := by omega
      rw [List.getElem_map, List.getElem_map, List.getElem_take, List.getElem_range]
      exact playing.collection_eq finished (by omega) (List.getElem?_eq_getElem hlt)
  have hbound : ∀ entry ∈ delivered history, entry.1 < plan.consumers := by
    rintro ⟨who, parcel⟩ hmem
    obtain ⟨caller, -, plays, hparcel⟩ := playing.exists_caller hmem
    exact plays.role_of_delivered hparcel
  have hparts := (flatMap_filter_perm hbound).map Prod.snd
  rw [List.map_flatMap] at hparts
  rw [List.flatMap_def, hmap, ← List.flatMap_def]
  exact hparts

/-- The first consumer has met the end of the channel, so nothing is left in it. -/
lemma toList_eq_nil (consumers : 0 < plan.consumers) :
    crowd.shared.channel.ring.toList = [] := by
  have hlt : 0 < crowd.callers.length := by
    rw [threads, Plan.threads]
    omega
  have hcaller := List.getElem?_eq_getElem hlt
  have hend := ((playing.parts 0 _ hcaller).collection_eq (finished _ (List.getElem_mem hlt))
    consumers).2
  exact (playing.run.empty_after_end (mem_of_deedsOf hend)).2

end
end Playing

/-- What a complete run has delivered, and what the channel and the crew report. -/
structure Delivered (plan : Plan) (p : Pipeline) : Prop where
  /-- The consumers have together received every value as often as it was sent. -/
  received : (p.collected plan.consumers).Perm plan.parcels
  /-- Each of them has received the values of each producer in the order of that producer. -/
  ordered : ∀ caller ∈ p.crowd.callers.take plan.consumers, ∀ producer,
    ((collection caller).filter fun parcel => parcel.producer = producer).Sublist
      (plan.parcelsOf producer)
  channel : p.crowd.shared.channel.stats =
    { capacity := max plan.capacity 1
      len := 0
      sent := plan.values
      received := plan.values
      rejected := 0
      closed := true }
  crew : p.crew.stats =
    { spawned := plan.threads
      detached := 0
      joinable := plan.threads
      joined := plan.threads
      panicked := 0
      live := 0 }

namespace Sound

section
variable (sound : Sound plan p) (complete : p.isComplete = true)
include sound complete

lemma closed_of_complete : p.crowd.shared.channel.closed = true ∧
    p.crew.workers.length = plan.threads ∧ ∀ w ∈ p.crew.workers, w.standing = .joined := by
  have ahead := sound.ahead
  rw [List.isEmpty_iff.mp complete] at ahead
  generalize hboard : p.crew.workers.map standing = board at ahead
  generalize p.crowd.shared.channel.closed = closed at ahead ⊢
  cases ahead with
  | done threads joined =>
    rw [← hboard] at threads joined
    refine ⟨rfl, ?_, fun w hw => joined _ (List.mem_map_of_mem hw)⟩
    rw [← threads, List.length_map]

/-- All workers have been joined and are over. -/
lemma workers_eq : p.crew.workers =
    List.replicate plan.threads ⟨.joinable, .announced, .over .returned, .spent⟩ := by
  obtain ⟨-, threads, joined⟩ := sound.closed_of_complete complete
  refine List.eq_replicate_iff.mpr ⟨threads, fun w hw => ?_⟩
  have hstanding := joined w hw
  obtain ⟨who, hwho⟩ := List.mem_iff_getElem?.mp hw
  obtain ⟨caller, hcaller⟩ := sound.staffed.exists_caller hwho
  have paired := sound.staffed.paired who w caller hwho hcaller
  obtain ⟨mode, launch, body, claim⟩ := w
  cases hstanding
  obtain rfl : mode = .joinable := paired.mode
  have hover := paired.waited rfl
  rw [isFinished] at hover
  split at hover
  next ending hbody =>
    dsimp only at hbody
    subst hbody
    rw [(paired.returned ending (.inr rfl)).1]
  · cases hover

lemma finished_of_complete : p.crowd.callers.length = plan.threads ∧
    ∀ caller ∈ p.crowd.callers, caller.isFinished = true := by
  have hworkers := sound.workers_eq complete
  constructor
  · rw [← sound.staffed.length_eq, hworkers, List.length_replicate]
  · intro caller hmem
    obtain ⟨who, hcaller⟩ := List.mem_iff_getElem?.mp hmem
    obtain ⟨w, hw⟩ := sound.staffed.exists_worker hcaller
    have hover := List.mem_of_getElem? hw
    rw [hworkers] at hover
    refine sound.staffed.finished hw hcaller ?_
    rw [List.eq_of_mem_replicate hover]
    rfl

/-- Every thread counts as spawned, joinable and joined, and none is left. -/
lemma crew_stats : p.crew.stats = ⟨plan.threads, 0, plan.threads, plan.threads, 0, 0⟩ := by
  obtain ⟨reports, run⟩ := sound.staffed.run
  have ledger := run.ledger
  have hjoined := sound.staffed.joined
  have hspawned := ledger.spawned
  have hdetached := ledger.detached
  have hjoinable := ledger.joinable
  have hpanicked := ledger.panicked
  have hlive := ledger.live
  rw [sound.workers_eq complete] at hjoined hspawned hdetached hjoinable hpanicked hlive
  rw [List.countP_replicate] at hjoined hspawned hdetached hjoinable hpanicked hlive
  generalize p.crew.stats = stats at *
  obtain ⟨spawned, detached, joinable, joined, panicked, live⟩ := stats
  simp_all [isSpawned, isAnnounced, hasPanicked, isLive, isFinished, isSpent]

theorem delivered (consumers : 0 < plan.consumers) : Delivered plan p := by
  obtain ⟨history, playing⟩ := sound.playing
  obtain ⟨threads, finished⟩ := sound.finished_of_complete complete
  have books := playing.run.books
  have hempty := playing.toList_eq_nil threads finished consumers
  have horder : (accepted history).map Prod.snd = (History.delivered history).map Prod.snd := by
    rw [books.order, hempty, List.append_nil]
  have haccepted := playing.accepted_perm threads finished
  have hsent : (accepted history).length = plan.values := by
    rw [← plan.length_parcels, ← haccepted.length_eq, List.length_map]
  have hreceived : (History.delivered history).length = plan.values := by
    rw [← hsent, ← List.length_map Prod.snd, ← horder, List.length_map]
  refine ⟨?_, fun caller hcaller producer => ?_, ?_, sound.crew_stats complete⟩
  · have hcollected := playing.collected_perm threads finished
    rw [← horder, ← collected_eq] at hcollected
    exact hcollected.trans haccepted
  · obtain ⟨who, hwho, rfl⟩ := List.mem_iff_getElem.mp hcaller
    rw [List.length_take] at hwho
    have hlt : who < p.crowd.callers.length := by omega
    rw [List.getElem_take, playing.collection_eq finished (by omega)
      (List.getElem?_eq_getElem hlt), ← playing.accepted_of_producer threads finished producer,
      horder]
    exact ((List.filter_sublist.map Prod.snd).filter _)
  · have hlen : p.crowd.shared.channel.ring.len = 0 := by
      rw [books.holds.len_eq, hempty]
      rfl
    simp only [Channel.stats, playing.run.capacity_eq, Channel.len, hlen, books.sent,
      books.received, books.rejected, playing.rejected_eq, hsent, hreceived,
      (sound.closed_of_complete complete).1, List.length_nil]

end
end Sound

lemma step_of_next {q : Pipeline} (h : p.next? = some q) : ∃ m, p.step m = some q := by
  rcases (Option.orElse_eq_some _ _ _).mp h with hmain | ⟨-, hworker⟩
  · exact ⟨.main, hmain⟩
  · obtain ⟨who, -, taken⟩ := List.exists_of_findSome?_eq_some hworker
    exact ⟨.worker who 0, taken⟩

/-- A move that is enabled for some choice of whom it wakes is enabled for every choice. -/
lemma Sound.exists_move_of_pick (sound : Sound plan p) {who pick : Nat} {q : Pipeline}
    (h : Moved p (.worker who pick) q) (other : Nat) :
    ∃ q, p.step (.worker who other) = some q := by
  obtain ⟨history, playing⟩ := sound.playing
  cases h with
  | lives worker mate due step => exact ⟨_, step_iff.mpr (.lives worker mate due step)⟩
  | turn worker mate body unfinished step =>
    obtain ⟨caller, -, -, -, hcaller, hunfinished, hwho, -⟩ :=
      Crowd.turn_cases playing.run.books.holds step
    have hready := Crowd.isReady_iff.mpr ⟨caller, hcaller, hunfinished, hwho⟩
    obtain ⟨⟨crowd, events⟩, step⟩ := Option.isSome_iff_exists.mp (Crowd.turn_isSome hready other)
    exact ⟨_, step_iff.mpr (.turn worker mate body unfinished step)⟩

/-- Where no first move is found there is none, and everything is done. -/
lemma Sound.isComplete_of_next (sound : Sound plan p) (consumers : 0 < plan.consumers)
    (h : p.next? = none) : p.isComplete = true := by
  obtain ⟨hmain, hworkers⟩ := (Option.orElse_eq_none _ _).mp h
  by_contra hcomplete
  obtain ⟨m, q, taken⟩ := sound.exists_move consumers (Bool.eq_false_of_not_eq_true hcomplete)
  cases m with
  | main =>
    rw [hmain] at taken
    cases taken
  | worker who pick =>
    obtain ⟨q, first⟩ := sound.exists_move_of_pick (step_iff.mp taken) 0
    have hlt : who < p.crew.workers.length := by
      cases step_iff.mp first with
      | lives worker | turn worker => exact (List.getElem?_eq_some_iff.mp worker).1
    rw [List.findSome?_eq_none_iff.mp hworkers who (List.mem_range.mpr hlt)] at first
    cases first

/-- The first moves that are found, one after the other, are a run under one schedule. -/
lemma Run.run {n : Nat} (run : Run plan n p) (k : Nat) :
    ∃ n', Run plan n' (p.run k) ∧ (n' = n + k ∨ (p.run k).next? = none) := by
  induction k generalizing n p with
  | zero => exact ⟨n, run, .inl rfl⟩
  | succ k ih =>
    cases hnext : p.next? with
    | none =>
      have hrun : p.run (k + 1) = p := by rw [Pipeline.run, hnext]
      rw [hrun]
      exact ⟨n, run, .inr hnext⟩
    | some q =>
      have hrun : p.run (k + 1) = q.run k := by rw [Pipeline.run, hnext]
      obtain ⟨m, taken⟩ := step_of_next hnext
      obtain ⟨n', run', hn'⟩ := ih (run.move m taken)
      rw [hrun]
      exact ⟨n', run', hn'.imp_left fun h => by omega⟩

/-- The effort of a plan suffices to perform it. -/
theorem perform_delivered (consumers : 0 < plan.consumers) :
    ∃ n p, Run plan n p ∧ Delivered plan p ∧ perform plan = p.summary plan.consumers := by
  obtain ⟨n, run, hn⟩ := Run.start.run plan.effort
  refine ⟨n, _, run, run.sound.delivered ?_ consumers, rfl⟩
  rcases hn with hall | hnext
  · have hle := run.effort_le
    exact isComplete_of_effortLeft (by omega)
  · exact run.sound.isComplete_of_next consumers hnext

/-- How a plan stands after so many moves. -/
structure Delivers (plan : Plan) (moves : Nat) (p : Pipeline) : Prop where
  bounded : moves ≤ plan.effort
  /-- Short of completion, somebody can go on. -/
  unstuck : p.isComplete = false → ∃ m q, p.step m = some q
  delivered : p.isComplete = true → Delivered plan p

/-- Under every schedule, at every moment. -/
theorem Run.delivers {n : Nat} (run : Run plan n p) (consumers : 0 < plan.consumers) :
    Delivers plan n p where
  bounded := Nat.le_of_add_right_le run.effort_le
  unstuck := run.sound.exists_move consumers
  delivered complete := run.sound.delivered complete consumers

/-- Two consumers share what two producers send through a channel of capacity one. -/
theorem two_producers_delivered : ∃ n p, Run ⟨0, [[1, -2, 1], [1]], 2⟩ n p ∧
    p.isComplete = true ∧ p.collected 2 = [⟨0, 1⟩, ⟨0, 1⟩, ⟨0, -2⟩, ⟨1, 1⟩] ∧
    Delivers ⟨0, [[1, -2, 1], [1]], 2⟩ n p := by
  obtain ⟨n, run, -⟩ := (@Run.start ⟨0, [[1, -2, 1], [1]], 2⟩).run 65
  exact ⟨n, _, run, by decide +kernel, by decide +kernel, run.delivers (by decide)⟩

end Strand.Pipeline
