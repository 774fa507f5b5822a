import Strand.Proofs.Host.Claims

/-! How a worker passes from one hand to the next: a spawn asks for it, launches it and stores its
handle; a join looks the handle up, takes it out and waits. Any number of other steps may fall in
between. Every step keeps the claims in order, and so does every run. -/
namespace Strand.Host
variable {issued : List (UInt64 × Nat)} {consumed : List UInt64} {p : Host} {who : Party}
  {chance : Chance} {effect : Effect} {k pick : Nat} {raw : UInt64}

/-- The handle that a step gives out, with its worker: the end of a spawn whose reply is a handle.
-/
def Moment.issued? (m : Moment) : Option (UInt64 × Nat) :=
  match m.action with
  | .resume who =>
    match m.before.busy.lookup who, m.effect.reply with
    | some (.enrolling k), some (.handle raw) => if raw = noHandle then none else some (raw, k)
    | _, _ => none
  | _ => none

/-- The handle that a step consumes: its join has taken it out and goes on to wait. -/
def Moment.consumed? (m : Moment) : Option UInt64 :=
  match m.action with
  | .resume who =>
    match m.before.busy.lookup who, m.effect.reply with
    | some (.removing raw), none => some raw
    | _, _ => none
  | _ => none

/-- The handles given out in a run, each with its worker. -/
def issuedIn (trace : List Moment) : List (UInt64 × Nat) := trace.filterMap Moment.issued?

/-- The handles consumed in a run. -/
def consumedIn (trace : List Moment) : List UInt64 := trace.filterMap Moment.consumed?

/-- What the next step of a launch comes to: it goes on, or the system refuses the worker, or the
worker is announced. -/
inductive Launched (p : Host) (who : Party) (mode : SpawnMode) (k : Nat) : Effect → Prop
  | goesOn {crew crew' report deed} (hcrew : p.crew = some crew)
      (step : crew.step (.worker k deed) = some (crew', report)) (neutral : deed.isNeutral = true)
      (working : ∀ ending, deed ≠ .stop ending) :
      Launched p who mode k
        ({ p with crew := some crew' }.proceed who report.lines (.launching mode k))
  | fails {crew crew' report deed lines} (hcrew : p.crew = some crew)
      (step : crew.step (.worker k deed) = some (crew', report)) (neutral : deed.isNeutral = true)
      (working : ∀ ending, deed ≠ .stop ending) :
      Launched p who mode k
        ({ p with crew := some crew' }.answer who lines (.handle noHandle))
  | tells {crew crew' report} (detached : mode = .detached) (hcrew : p.crew = some crew)
      (step : crew.step (.worker k .announce) = some (crew', report)) :
      Launched p who mode k
        ({ p with crew := some crew' }.answer who report.lines
          (.handle (detachedToken (UInt64.ofNat (Crew.idOf k)))))
  | hands {crew crew' report} (joinable : mode = .joinable) (hcrew : p.crew = some crew)
      (step : crew.step (.worker k .announce) = some (crew', report)) :
      Launched p who mode k
        ({ p with crew := some crew' }.proceed who report.lines (.enrolling k))

theorem launch_cases {mode : SpawnMode} (h : p.launch who chance mode k = some effect) :
    Launched p who mode k effect := by
  simp only [launch] at h
  cases hcrew : p.crew with
  | none => simp [hcrew] at h
  | some crew =>
    simp only [hcrew] at h
    split at h
    · cases h
    next crew' report hbind =>
      obtain ⟨action, haction, hstep⟩ := Option.bind_eq_some_iff.mp hbind
      split at haction
      · split at haction
        · cases haction
          simp only [Crew.outcome_refuse hstep, Option.some.injEq] at h
          rw [← h]
          exact .fails hcrew hstep rfl (by simp)
        · cases haction
          simp only [Crew.outcome_grant hstep, Option.some.injEq] at h
          rw [← h]
          exact .goesOn hcrew hstep rfl (by simp)
      · cases haction
        simp only [Crew.outcome_count hstep, Option.some.injEq] at h
        rw [← h]
        exact .goesOn hcrew hstep rfl (by simp)
      · cases haction
        obtain ⟨-, -, -, houtcome, -⟩ := Crew.stake?_announce hstep
        simp only [houtcome] at h
        cases mode with
        | detached =>
          cases h
          exact .tells rfl hcrew hstep
        | joinable =>
          cases h
          exact .hands rfl hcrew hstep
      · cases haction

namespace Claims

lemma ofSource (source : Settings.Source) : Claims [] [] (Host.ofSource source) where
  tracks := Table.Tracks.empty
  workers_nodup := List.nodup_nil
  known _ hk := by cases hk
  held _ _ hraw := by cases hraw
  keys := List.nodup_nil
  fits _ _ hmem := by cases hmem
  apart _ _ _ _ _ hmem := by cases hmem

lemma spawn (claims : Claims issued consumed p) (mode : SpawnMode) (given : Bool) :
    Claims issued consumed (p.spawn who mode given).host := by
  cases given with
  | false =>
    apply claims.quiet who
    apply quiet_answer <;> rfl
  | true =>
    apply claims.asks (k := p.crewed.1.workers.length)
    · rw [← p.stake?_crewed]
      exact p.crewed.1.stake?_length
    · exact p.crewed.1.stake?_request_self mode
    · intro j hj
      rw [← p.stake?_crewed]
      exact p.crewed.1.stake?_request_ne mode hj
    · rfl
    · rfl

lemma join (claims : Claims issued consumed p) (pick : Nat) (raw : UInt64) :
    Claims issued consumed (p.join who pick raw).host := by
  simp only [Host.join]
  split
  · apply claims.quiet who
    apply quiet_answer <;> rfl
  · split
    · exact claims.quiet who (quiet_reject p who pick _)
    next k hfind =>
      split
      · exact claims.quiet who (quiet_reject p who pick _)
      next hother =>
        apply claims.goesOn who (some (.removing raw))
        · rfl
        · rfl
        · rfl
        · intro a ha
          cases ha
          exact ⟨k, ((claims.tracks.findRaw_iff raw k).mp hfind).1, hother⟩
        · intro a ha hworker
          cases ha
          exact absurd rfl hworker

/-- A launch goes on step by step; only the announcement of a joinable worker brings a handle. -/
lemma launch (claims : Claims issued consumed p) {mode : SpawnMode}
    (hmem : (who, .launching mode k) ∈ p.busy) (h : p.launch who chance mode k = some effect) :
    Claims issued consumed effect.host := by
  obtain ⟨hstake, hnew⟩ := claims.fits who _ hmem
  cases launch_cases h with
  | @goesOn crew crew' report deed hcrew hstep hneutral =>
    have hstakes : stake? { p with crew := some crew' } = p.stake? := by
      rw [stake?_of_crew hcrew, stake?_of_crew rfl]
      exact Crew.stake?_neutral hneutral hstep
    apply claims.goesOn who (some (.launching mode k))
    · rfl
    · exact hstakes
    · rfl
    · intro a ha
      cases ha
      exact ⟨hstake, hnew⟩
    · intro a ha _
      cases ha
      exact hmem
  | @fails crew crew' report deed lines hcrew hstep hneutral =>
    apply claims.quiet who
    apply quiet_answer
    · rfl
    · rw [stake?_of_crew hcrew, stake?_of_crew rfl]
      exact Crew.stake?_neutral hneutral hstep
    · rfl
  | @tells crew crew' report _ hcrew hstep =>
    apply claims.deed none hmem rfl hstep hcrew
    · rfl
    · rfl
    · rfl
    · simp
    · simp
  | @hands crew crew' report joinable hcrew hstep =>
    obtain ⟨mode', claim, hold, -, hself⟩ := Crew.stake?_announce hstep
    rw [stake?_of_crew hcrew, hold, joinable] at hstake
    cases hstake
    apply claims.deed (some (.enrolling k)) hmem rfl hstep hcrew
    · rfl
    · rfl
    · rfl
    · intro b hb
      cases hb
      exact ⟨hself, hnew⟩
    · intro b hb
      cases hb
      rfl

lemma enroll_ok (claims : Claims issued consumed p) (hmem : (who, .enrolling k) ∈ p.busy)
    {h : Handle} {threads : Table Nat} (hinsert : p.threads.insert k = .ok (h, threads)) :
    Claims (issued ++ [(h.toRaw, k)]) consumed (p.enroll who k).host := by
  simp only [Host.enroll, hinsert]
  apply claims.enrolls hmem
  · exact Table.insert_cases claims.tracks.sound hinsert
  · rfl
  · rfl

/-- Without a place in the table the handle is dropped, and the worker can not be joined. -/
lemma enroll_error (claims : Claims issued consumed p) (hmem : (who, .enrolling k) ∈ p.busy)
    {e : HandleError} (hinsert : p.threads.insert k = .error e) :
    Claims issued consumed (p.enroll who k).host := by
  simp only [Host.enroll, hinsert]
  obtain ⟨hstake, -⟩ := claims.fits who _ hmem
  obtain ⟨crew, hcrew, hheld⟩ := Option.bind_eq_some_iff.mp hstake
  have hdrop : p.crew.map (fun crew => (crew.run [.worker k .drop]).1) =
      some (crew.run [.worker k .drop]).1 := by rw [hcrew]; rfl
  have hrun : (crew.run [.worker k .drop]).1.stake? k ≠ none ∧
      ∀ j ≠ k, (crew.run [.worker k .drop]).1.stake? j = crew.stake? j := by
    rw [Crew.run]
    cases hstep : crew.step (.worker k .drop) with
    | none =>
      rw [hheld]
      exact ⟨Option.some_ne_none _, fun _ _ => rfl⟩
    | some result =>
      exact ⟨Crew.stake?_step_ne_none hstep, fun j hj => Crew.stake?_step_ne hstep hj⟩
  rw [hdrop]
  apply claims.owns none hmem rfl
  · exact hrun.1
  · intro j hj
    rw [stake?_of_crew hcrew]
    exact hrun.2 j hj
  · rfl
  · rfl
  · simp
  · simp

/-- The first removal after the look finds the worker that was looked at, which is not the caller,
and waits for it. -/
lemma takeOut_live (claims : Claims issued consumed p) (hmem : (who, .removing raw) ∈ p.busy)
    (hlive : raw ∉ consumed) (pick : Nat) :
    ∃ h k threads crew crew' report, h.toRaw = raw ∧ (raw, k) ∈ issued ∧ who ≠ .worker k ∧
      Table.Removed p.threads h k threads ∧ p.crew = some crew ∧
      crew.step (.worker k (.join who)) = some (crew', report) ∧
      crew'.stake? k = some (.joinable, .joining) ∧
      p.takeOut who pick raw =
        some ({ p with threads, crew := some crew' }.proceed who report.lines (.joining k)) := by
  obtain ⟨k, hraw, hother⟩ := claims.fits who _ hmem
  have hfind := (claims.tracks.findRaw_iff raw k).mpr ⟨hraw, hlive⟩
  obtain ⟨threads, hremove⟩ := Table.exists_removeRaw_iff.mpr hfind
  obtain ⟨h, hh, hstep⟩ := Table.removeRaw_eq_ok_iff.mp hremove
  obtain ⟨crew, hcrew, hheld⟩ := Option.bind_eq_some_iff.mp (claims.held raw k hraw hlive)
  obtain ⟨crew', report, hjoin, houtcome, hjoining⟩ := Crew.exists_step_join hheld hother
  refine ⟨h, k, threads, crew, crew', report, hh, hraw, hother, Table.remove_cases hstep, hcrew,
    hjoin, hjoining, ?_⟩
  simp only [Host.takeOut, hremove, hcrew, Option.bind_some, hjoin, houtcome]

/-- A later removal finds nothing under the number, whoever has the slot by then. -/
lemma takeOut_late (claims : Claims issued consumed p) (hlate : raw ∈ consumed) (who : Party)
    (pick : Nat) :
    ∃ text, p.takeOut who pick raw = some (p.reject who pick text) := by
  simp only [Host.takeOut]
  cases hremove : p.threads.removeRaw raw with
  | error e => exact ⟨_, rfl⟩
  | ok result =>
    obtain ⟨k, threads⟩ := result
    have hfind := Table.exists_removeRaw_iff.mp ⟨threads, hremove⟩
    exact absurd hlate ((claims.tracks.findRaw_iff raw k).mp hfind).2

lemma collect (claims : Claims issued consumed p) (hmem : (who, .joining k) ∈ p.busy)
    (h : p.collect who k = some effect) : Claims issued consumed effect.host := by
  obtain ⟨⟨crew', report⟩, hstep, rfl⟩ := Option.map_eq_some_iff.mp h
  obtain ⟨crew, hcrew, hstep⟩ := Option.bind_eq_some_iff.mp hstep
  apply claims.deed none hmem rfl hstep hcrew
  · rfl
  · rfl
  · rfl
  · simp
  · simp

/-- The later steps of a call, whatever the other calls are at. -/
lemma resume (claims : Claims issued consumed p) {a : Activity} (ha : p.busy.lookup who = some a)
    (h : p.continue? who chance a = some effect) :
    Claims (issued ++ (Moment.issued? ⟨p, chance, .resume who, effect⟩).toList)
      (consumed ++ (Moment.consumed? ⟨p, chance, .resume who, effect⟩).toList) effect.host := by
  have hmem := mem_of_lookup ha
  cases a with
  | launching mode k =>
    simpa [Moment.issued?, Moment.consumed?, ha] using claims.launch hmem h
  | enrolling k =>
    cases h
    cases hinsert : p.threads.insert k with
    | ok result =>
      obtain ⟨handle, threads⟩ := result
      have hreply : (p.enroll who k).reply = some (.handle handle.toRaw) := by
        simp only [enroll, hinsert]
        rfl
      have hnot : handle.toRaw ≠ noHandle := handle.toRaw_ne_zero
      simpa [Moment.issued?, Moment.consumed?, ha, hreply, hnot] using
        claims.enroll_ok hmem hinsert
    | error e =>
      have hreply : (p.enroll who k).reply = some (.handle noHandle) := by
        simp only [enroll, hinsert]
        rfl
      simpa [Moment.issued?, Moment.consumed?, ha, hreply] using claims.enroll_error hmem hinsert
  | removing raw =>
    change p.takeOut who chance.pick raw = some effect at h
    by_cases hlate : raw ∈ consumed
    · obtain ⟨text, hreject⟩ := claims.takeOut_late hlate who chance.pick
      rw [hreject] at h
      cases h
      have hreply := (turnedAway_reject p who chance.pick text).at_once
      simpa [Moment.issued?, Moment.consumed?, ha, hreply] using
        claims.quiet who (quiet_reject p who chance.pick text)
    · obtain ⟨handle, k, threads, crew, crew', report, rfl, -, -, hstep, hcrew, hjoin, hjoining,
        htake⟩ := claims.takeOut_live hmem hlate chance.pick
      rw [htake] at h
      cases h
      have hkept : Claims issued (consumed ++ [handle.toRaw])
          ({ p with threads, crew := some crew' }.proceed who report.lines (.joining k)).host := by
        apply claims.consumes hstep
        · exact hjoining
        · intro j hj
          rw [stake?_of_crew hcrew]
          exact Crew.stake?_step_ne hjoin hj
        · rfl
      simpa [Moment.issued?, Moment.consumed?, ha, proceed] using hkept
  | joining k => simpa [Moment.issued?, Moment.consumed?, ha] using claims.collect hmem h
  | _ =>
    simpa [Moment.issued?, Moment.consumed?, ha] using claims.quiet who (quiet_continue rfl h)

/-- Every step keeps every worker in one hand. -/
theorem step (claims : Claims issued consumed p) {action : Action}
    (taken : p.step chance action = some effect) :
    Claims (issued ++ (Moment.issued? ⟨p, chance, action, effect⟩).toList)
      (consumed ++ (Moment.consumed? ⟨p, chance, action, effect⟩).toList) effect.host := by
  cases action with
  | call who c =>
    simp only [Host.step, Option.ite_none_right_eq_some, Option.some.injEq] at taken
    obtain ⟨-, rfl⟩ := taken
    simp only [Moment.issued?, Moment.consumed?, Option.toList_none, List.append_nil]
    by_cases hspawn : ∃ mode given, c = .spawn mode given
    · obtain ⟨mode, given, rfl⟩ := hspawn
      exact claims.spawn mode given
    by_cases hjoin : ∃ h, c = .join h
    · obtain ⟨h, rfl⟩ := hjoin
      exact claims.join chance.pick h
    exact claims.quiet who (quiet_call p who chance (fun mode given hc => hspawn ⟨mode, given, hc⟩)
      fun h hc => hjoin ⟨h, hc⟩)
  | resume who =>
    obtain ⟨a, ha, hcontinue⟩ := Option.bind_eq_some_iff.mp taken
    exact claims.resume ha hcontinue
  | begin k =>
    simp only [Moment.issued?, Moment.consumed?, Option.toList_none, List.append_nil]
    exact claims.quiet (.worker k) (quiet_crewStep _ rfl taken)
  | stop k =>
    simp only [Host.step, Option.ite_none_right_eq_some] at taken
    simp only [Moment.issued?, Moment.consumed?, Option.toList_none, List.append_nil]
    exact claims.quiet (.worker k) (quiet_crewStep _ rfl taken.2)
  | leave k =>
    have hquiet := quiet_crewStep (.worker k) rfl taken
    simp only [Moment.issued?, Moment.consumed?, Option.toList_none, List.append_nil]
    exact claims.quiet (.worker k) ⟨hquiet.threads, hquiet.stakes, hquiet.busy⟩

end Claims

theorem Run.claims {source : Settings.Source} {trace : List Moment} (run : Run source trace p) :
    Claims (issuedIn trace) (consumedIn trace) p := by
  induction run with
  | start => exact Claims.ofSource source
  | step run chance action taken ih =>
    rw [issuedIn, consumedIn, filterMap_concat, filterMap_concat]
    exact ih.step taken

end Strand.Host
