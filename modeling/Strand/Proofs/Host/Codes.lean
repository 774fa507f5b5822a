import Strand.Proofs.ErrorSlots
import Strand.Proofs.Host.Crewed
import Strand.Proofs.Host.Routing

/-! What a join that is turned away does to error codes. Under the policy for it the caller's code
becomes the configured one, and stays until the caller's own next use; everything else in the host
is left alone. The threads of a host use their slots as the threads of a table do, because a thread
that takes a step has not ended. -/
namespace Strand

namespace ErrorSlots
open ErrorSlot (register register_concat answers_concat claim_of_owner claim_of_ne)
variable {ι : Type} [DecidableEq ι] {history : List (Happening ι)} {s : ErrorSlots ι} {who k : ι}

/-- The code of a thread, which is zero as long as its entry does not name it. -/
def codeOf (s : ErrorSlots ι) (who : ι) : Int64 :=
  match s.held.lookup who with
  | some i => ((s.entries[i]?.getD .vacant).claim who).code
  | none => noError

lemma Kept.codeOf_eq (kept : Kept history s) (lives : .ended who ∉ history) :
    s.codeOf who = register (opsOf who history) := by
  have hsilent : .claimed who ∉ history → register (opsOf who history) = 0 := by
    intro h
    rw [opsOf, kept.silent who h]
    rfl
  rw [codeOf]
  cases hheld : s.held.lookup who with
  | none =>
    refine (hsilent fun hclaimed => ?_).symm
    obtain ⟨i, -, hmem, -⟩ := kept.claimed who hclaimed lives
    simpa using List.lookup_eq_none_iff.mp hheld _ hmem
  | some i =>
    have mine := mem_of_lookup hheld
    have hlt := (kept.held who i mine).1
    have there := List.getElem?_eq_getElem hlt
    simp only [there, Option.getD_some]
    by_cases howner : s.entries[i].owner = some who
    · rw [claim_of_owner howner]
      exact (kept.owned who i _ there howner lives).2
    · rw [claim_of_ne howner]
      exact (hsilent fun hclaimed => howner (kept.there hclaimed mine there).1).symm

lemma Kept.codeOf_ended (kept : Kept history s) (ended : .ended who ∈ history) :
    s.codeOf who = 0 := by
  rw [codeOf]
  cases hheld : s.held.lookup who with
  | none => rfl
  | some i => exact absurd ended (kept.held who i (mem_of_lookup hheld)).2

section
variable (run : Run history s) (lives : .ended who ∉ history) (pick : Nat) (op : ErrorSlot.Op)
include run lives

/-- A thread is told what its code tells. -/
lemma Run.answer_perform : (s.perform who pick op).1 = op.told (s.codeOf who) := by
  have told := (run.perform who lives pick op).told who
  rw [answersOf, opsOf, dealings_concat_did, List.map_append, List.map_append, List.map_singleton,
    List.map_singleton, ← opsOf, answers_concat, List.nil_append, opsOf, dealings_concat_claimed,
    ← opsOf, ← run.kept.codeOf_eq lives] at told
  exact List.singleton_inj.mp (List.append_inj' told rfl).2

lemma Run.codeOf_perform :
    (s.perform who pick op).2.codeOf who = op.written?.getD (s.codeOf who) := by
  have hlives : Happening.ended who ∉
      history ++ [Happening.claimed who] ++ [Happening.did who op (s.perform who pick op).1] := by
    simpa using lives
  rw [(run.perform who lives pick op).kept.codeOf_eq hlives, opsOf, dealings_concat_did,
    List.map_append, List.map_singleton, register_concat, dealings_concat_claimed, ← opsOf,
    run.kept.codeOf_eq lives]

/-- What a thread does to its code changes nobody else's. -/
lemma Run.codeOf_perform_ne (hne : k ≠ who) :
    (s.perform who pick op).2.codeOf k = s.codeOf k := by
  have kept := (run.perform who lives pick op).kept
  have hended : Happening.ended k ∈
      history ++ [Happening.claimed who] ++ [Happening.did who op (s.perform who pick op).1] ↔
        Happening.ended k ∈ history := by simp
  by_cases hk : .ended k ∈ history
  · rw [kept.codeOf_ended (hended.mpr hk), run.kept.codeOf_ended hk]
  · rw [kept.codeOf_eq (mt hended.mp hk), run.kept.codeOf_eq hk, opsOf,
      dealings_concat_of_ne (Ne.symm hne), dealings_concat_claimed, opsOf]

end

lemma codeOf_exit_ne (s : ErrorSlots ι) (hne : k ≠ who) : (s.exit who).codeOf k = s.codeOf k := by
  rw [codeOf, codeOf, exit, lookup_filter_ne, if_neg hne]

end ErrorSlots

namespace Host
open ErrorSlots (Happening)
variable {source : Settings.Source} {trace before after : List Moment} {m : Moment} {p : Host}
  {history : List (Happening Party)} {chance : Chance} {action : Action} {effect : Effect}
  {who other : Party} {raw : UInt64} {k : Nat}

/-- How the slots of a host stand to the threads that use them. -/
structure Slotted (history : List (Happening Party)) (p : Host) : Prop where
  run : ErrorSlots.Run history p.slots
  sound : ∀ w ∈ p.crewed.1.workers, w.Sound
  /-- Only workers give their slots back, and they are over then. -/
  ended : ∀ who, .ended who ∈ history →
    ∃ k w ending, who = .worker k ∧ p.crewed.1.workers[k]? = some w ∧ w.body = .over ending
  working : ∀ k a, p.busy.lookup (.worker k) = some a →
    ∃ w, p.crewed.1.workers[k]? = some w ∧ w.body = .working

lemma working_of_free (free : p.isFree (.worker k) = true) :
    ∃ w, p.crewed.1.workers[k]? = some w ∧ w.body = .working := by
  simp only [isFree, workers_crewed, Bool.and_eq_true] at free
  obtain ⟨w, hw⟩ := Option.isSome_iff_exists.mp free.2
  obtain ⟨hw, hworking⟩ := Option.filter_eq_some_iff.mp hw
  exact ⟨w, hw, by simpa [Worker.isWorking] using hworking⟩

namespace Slotted

/-- A worker that takes a step of a call is at work. -/
lemma acts (slotted : Slotted history p) (taken : p.step chance action = some effect)
    (inCall : Machine.ofCall action = true) (hwho : action.who = .worker k) :
    ∃ w, p.crewed.1.workers[k]? = some w ∧ w.body = .working := by
  cases action with
  | call who c =>
    simp only [step, Option.ite_none_right_eq_some] at taken
    cases hwho
    exact working_of_free taken.1
  | resume who =>
    obtain ⟨a, ha, -⟩ := Option.bind_eq_some_iff.mp taken
    cases hwho
    exact slotted.working k a ha
  | begin | stop | leave => cases inCall

lemma lives (slotted : Slotted history p) (taken : p.step chance action = some effect)
    (inCall : Machine.ofCall action = true) : .ended action.who ∉ history := by
  intro hended
  obtain ⟨k, w, ending, hwho, hw, hover⟩ := slotted.ended _ hended
  obtain ⟨v, hv, hworking⟩ := slotted.acts taken inCall hwho
  rw [hw, Option.some.injEq] at hv
  rw [← hv, hover] at hworking
  cases hworking

lemma inCall_of_asks {op : ErrorSlot.Op} (asks : action.op? = some op) :
    Machine.ofCall action = true := by
  cases action with
  | call | resume => rfl
  | begin | stop | leave => cases asks

/-- What is said about the workers stays so. -/
lemma keeps (slotted : Slotted history p) (taken : p.step chance action = some effect) :
    (∀ who, .ended who ∈ history → ∃ k w ending, who = .worker k ∧
      effect.host.crewed.1.workers[k]? = some w ∧ w.body = .over ending) ∧
    ∀ k a, effect.host.busy.lookup (.worker k) = some a →
      ∃ w, effect.host.crewed.1.workers[k]? = some w ∧ w.body = .working := by
  have moves := step_moves taken
  constructor
  · intro who hended
    obtain ⟨k, w, ending, hwho, hw, hover⟩ := slotted.ended who hended
    obtain ⟨w', hw', hbody⟩ := moves.crew.steady slotted.sound hw (.inr ⟨ending, hover⟩)
    exact ⟨k, w', ending, hwho, hw', hbody.trans hover⟩
  · intro k a hbusy
    have hworking : ∃ w, p.crewed.1.workers[k]? = some w ∧ w.body = .working := by
      rcases moves.busy with hsame | ⟨inCall, hothers⟩
      · exact slotted.working k a (hsame ▸ hbusy)
      · by_cases hwho : action.who = .worker k
        · exact slotted.acts taken inCall hwho
        · exact slotted.working k a (hothers _ (Ne.symm hwho) ▸ hbusy)
    have hstop : action ≠ .stop k := by
      rintro rfl
      simp only [step, Option.ite_none_right_eq_some] at taken
      have hidle := lookup_of_free taken.1
      rcases moves.busy with hsame | ⟨inCall, -⟩
      · rw [hsame, hidle] at hbusy
        cases hbusy
      · cases inCall
    obtain ⟨w, hw, hbody⟩ := hworking
    obtain ⟨w', hw', hsame⟩ := moves.crew.steady slotted.sound hw (.inl ⟨hbody, hstop⟩)
    exact ⟨w', hw', hsame.trans hbody⟩

/-- A worker that leaves is over. -/
lemma leaves (slotted : Slotted history p) (taken : p.step chance (.leave k) = some effect) :
    ∃ w ending, effect.host.crewed.1.workers[k]? = some w ∧ w.body = .over ending := by
  obtain ⟨⟨crew', report⟩, hbind, rfl⟩ := Option.map_eq_some_iff.mp taken
  obtain ⟨crew, hcrew, hstep⟩ := Option.bind_eq_some_iff.mp hbind
  obtain ⟨w, -, hw, -⟩ := Crew.step_worker hstep
  have sound := slotted.sound
  rw [show p.crewed.1 = crew from crewed_of_crew hcrew] at sound
  obtain ⟨w', hw', ⟨deed, hdeed, hmoves⟩ | ⟨-, hnot⟩⟩ := Crew.step_body sound hstep hw
  · cases hdeed
    generalize hbody : w'.body = body at hmoves
    generalize w.body = body' at hmoves
    cases hmoves with
    | leaves ending => exact ⟨w', ending, hw', hbody⟩
    | stays aside => cases aside
  · exact absurd rfl (hnot .leave)

theorem step (slotted : Slotted history p) (sound : ∀ w ∈ effect.host.crewed.1.workers, w.Sound)
    (taken : p.step chance action = some effect) : ∃ history', Slotted history' effect.host := by
  obtain ⟨hover, hworking⟩ := slotted.keeps taken
  have hperform : ∀ pick op, Machine.ofCall action = true →
      effect.host.slots = (p.slots.perform action.who pick op).2 →
      ∃ history', Slotted history' effect.host := by
    intro pick op inCall hslots
    have run := slotted.run.perform action.who (slotted.lives taken inCall) pick op
    rw [← hslots] at run
    exact ⟨_, run, sound, fun who hended => hover who (by simpa using hended), hworking⟩
  generalize hslots : effect.host.slots = slots at *
  cases hslots ▸ (step_moves taken).slots with
  | stays => exact ⟨history, hslots ▸ slotted.run, sound, hover, hworking⟩
  | uses asks pick => exact hperform pick _ (inCall_of_asks asks) rfl
  | signals inCall _ pick => exact hperform pick _ inCall rfl
  | @ends k hleave =>
    subst hleave
    refine ⟨_, hslots ▸ slotted.run.ends (.worker k), sound, fun who hended => ?_, hworking⟩
    rcases List.mem_append.mp hended with hended | hended
    · exact hover who hended
    · cases List.mem_singleton.mp hended
      obtain ⟨w, ending, hw, hbody⟩ := slotted.leaves taken
      exact ⟨k, w, ending, rfl, hw, hbody⟩

end Slotted

lemma Run.sound (run : Run source trace p) : ∀ w ∈ p.crewed.1.workers, w.Sound := by
  obtain ⟨-, history, crewRun⟩ := run.crewed
  exact crewRun.ledger.sound

theorem Run.slotted (run : Run source trace p) : ∃ history, Slotted history p := by
  have sound := run.sound
  induction run with
  | start =>
    exact ⟨[], .start, sound, fun _ h => absurd h List.not_mem_nil, fun _ _ h => by cases h⟩
  | step run chance action taken ih =>
    obtain ⟨history, slotted⟩ := ih run.sound
    exact slotted.step sound taken

section
variable (slotted : Slotted history p) (taken : p.step chance action = some effect)
include slotted taken

/-- No step changes the code of a thread that does not take it. -/
lemma codeOf_step_ne (hne : other ≠ action.who) :
    effect.host.slots.codeOf other = p.slots.codeOf other := by
  generalize hslots : effect.host.slots = slots
  cases hslots ▸ (step_moves taken).slots with
  | stays => rfl
  | uses asks pick =>
    exact slotted.run.codeOf_perform_ne (slotted.lives taken (Slotted.inCall_of_asks asks)) _ _ hne
  | signals inCall _ pick =>
    exact slotted.run.codeOf_perform_ne (slotted.lives taken inCall) _ _ hne
  | ends hleave =>
    subst hleave
    exact ErrorSlots.codeOf_exit_ne _ hne

end

/-- Whether a step puts something else into the code of a thread than a join does: the thread sets
it, takes it or clears it, or ends. -/
def Action.Resets (action : Action) (who : Party) : Prop :=
  action.who = who ∧ ((∃ op, action.op? = some op ∧ op.written? ≠ none) ∨ ∃ k, action = .leave k)

/-- A code stays if it is not reset, unless a join is turned away. -/
lemma codeOf_step (slotted : Slotted history p) (taken : p.step chance action = some effect)
    (hresets : ¬action.Resets who) :
    effect.host.slots.codeOf who = p.slots.codeOf who ∨
      p.crewed.1.settings.invalidJoin = .setError ∧
        effect.host.slots.codeOf who = p.crewed.1.settings.invalidJoinCode := by
  by_cases hwho : who = action.who
  swap
  · exact .inl (codeOf_step_ne slotted taken hwho)
  subst hwho
  generalize hslots : effect.host.slots = slots
  cases hslots ▸ (step_moves taken).slots with
  | stays => exact .inl rfl
  | @uses op asks pick =>
    have hwritten : op.written? = none := by
      by_contra hwritten
      exact hresets ⟨rfl, .inl ⟨op, asks, hwritten⟩⟩
    rw [slotted.run.codeOf_perform (slotted.lives taken (Slotted.inCall_of_asks asks)), hwritten]
    exact .inl rfl
  | signals inCall policy pick =>
    refine .inr ⟨policy, ?_⟩
    rw [slotted.run.codeOf_perform (slotted.lives taken inCall)]
    rfl
  | ends hleave => exact absurd ⟨rfl, .inr ⟨_, hleave⟩⟩ hresets

/-- The steps of a join, with the handle that the step looks for unless it waits for its worker. -/
inductive OfJoin (p : Host) : Action → Option UInt64 → Prop
  | asks (who : Party) (raw : UInt64) : OfJoin p (.call who (.join raw)) (some raw)
  | takes {who : Party} {raw : UInt64} (found : p.busy.lookup who = some (.removing raw)) :
      OfJoin p (.resume who) (some raw)
  | waits {who : Party} {k : Nat} (found : p.busy.lookup who = some (.joining k)) :
      OfJoin p (.resume who) none

/-- A number that is not zero and no handle for `who` to join after the steps of `trace`: it was
never given out, or is joined already, or belongs to the very thread. -/
def Unjoinable (trace : List Moment) (who : Party) (raw : UInt64) : Prop :=
  raw ≠ noHandle ∧ ∀ k, (raw, k) ∈ issuedIn trace → raw ∈ consumedIn trace ∨ who = .worker k

section
variable {seeks : Option UInt64} (run : Run source trace p)
  (taken : p.step chance action = some effect)
include run taken

lemma turnedAway_of_unjoinable (ofJoin : OfJoin p action (some raw))
    (unjoinable : Unjoinable trace action.who raw) :
    TurnedAway p action.who chance.pick effect := by
  have claims := run.claims
  obtain ⟨hraw, hgone⟩ := unjoinable
  cases ofJoin with
  | asks who =>
    rw [step_call taken]
    by_cases hown : ∃ k, (raw, k) ∈ issuedIn trace ∧ raw ∉ consumedIn trace
    · obtain ⟨k, hissued, hlive⟩ := hown
      obtain rfl := (hgone k hissued).resolve_left hlive
      exact claims.join_own hissued chance.pick
    · exact claims.join_gone hraw
        (fun k hissued => by_contra fun hlive => hown ⟨k, hissued, hlive⟩) who chance.pick
  | @takes who _ found =>
    obtain ⟨k, hissued, hother⟩ := claims.fits _ _ (mem_of_lookup found)
    obtain ⟨text, hreject⟩ :=
      claims.takeOut_late ((hgone k hissued).resolve_right hother) who chance.pick
    rw [step_resume found, continue?, hreject] at taken
    cases taken
    exact turnedAway_reject p who chance.pick text

lemma slots_of_joinable (ofJoin : OfJoin p action seeks)
    (joinable : ∀ raw, seeks = some raw → ¬Unjoinable trace action.who raw) :
    effect.host.slots = p.slots := by
  have claims := run.claims
  cases ofJoin with
  | asks who raw =>
    rw [step_call taken]
    by_cases hraw : raw = noHandle
    · simp only [call, join, if_pos hraw]
      rfl
    · obtain ⟨k, hissued, hlive, hother⟩ :
          ∃ k, (raw, k) ∈ issuedIn trace ∧ raw ∉ consumedIn trace ∧ who ≠ .worker k := by
        by_contra hnone
        refine joinable raw rfl ⟨hraw, fun k hissued => ?_⟩
        by_contra hboth
        rw [not_or] at hboth
        exact hnone ⟨k, hissued, hboth⟩
      rw [call, claims.join_found hissued hlive hother]
      rfl
  | @takes who raw found =>
    have hmem := mem_of_lookup found
    obtain ⟨k, hissued, -⟩ := claims.fits _ _ hmem
    have hlive : raw ∉ consumedIn trace := fun hlate =>
      joinable raw rfl ⟨claims.ne_noHandle hissued, fun _ _ => .inl hlate⟩
    obtain ⟨_, _, _, _, _, _, -, -, -, -, -, -, -, htake⟩ :=
      claims.takeOut_live hmem hlive chance.pick
    rw [step_resume found, continue?, htake] at taken
    cases taken
    rfl
  | waits found =>
    rw [step_resume found] at taken
    obtain ⟨_, -, rfl⟩ := Option.map_eq_some_iff.mp taken
    rfl

omit run in
lemma aside_join (ofJoin : OfJoin p action seeks) : Aside p action.who effect.host := by
  cases ofJoin with
  | asks who raw =>
    rw [step_call taken]
    exact aside_call p who chance rfl
  | takes found | waits found =>
    rw [step_resume found] at taken
    exact aside_continue rfl taken

end

/-- What comes of a join that is turned away, under the settings that the environment asks for. -/
structure Rejected (source : Settings.Source) (p : Host) (who : Party) (effect : Effect) :
    Prop where
  at_once : effect.reply = some .nothing
  free : effect.host.isFree who = true
  crew : effect.host.crewed.1 = p.crewed.1
  threads : effect.host.threads = p.threads
  silent : (Settings.configured source).invalidJoin ≠ .setError → effect.host.slots = p.slots
  code : (Settings.configured source).invalidJoin = .setError →
    effect.host.slots.codeOf who = (Settings.configured source).invalidJoinCode

lemma isFree_answer {lines : List Log.Line} {reply : Reply}
    (working : ∀ k, who = .worker k → ∃ w, p.crewed.1.workers[k]? = some w ∧ w.body = .working) :
    (p.answer who lines reply).host.isFree who = true := by
  have hidle : (p.answer who lines reply).host.busy.lookup who = none := by
    change (p.busyAfter who none).lookup who = _
    rw [lookup_busyAfter, if_pos rfl]
  simp only [isFree, hidle]
  cases who with
  | outside n => rfl
  | worker k =>
    obtain ⟨w, hw, hworking⟩ := working k rfl
    simp only [workers_crewed]
    rw [show (p.answer (.worker k) lines reply).host.crewed.1 = p.crewed.1 from rfl, hw]
    simp [Worker.isWorking, hworking]

/-- Every way in which a join is turned away ends in the policy for it. -/
theorem rejected_of_turnedAway (run : Run source trace p)
    (taken : p.step chance action = some effect) (inCall : Machine.ofCall action = true)
    (away : TurnedAway p action.who chance.pick effect) : Rejected source p action.who effect := by
  obtain ⟨history, slotted⟩ := run.slotted
  have hworking := fun k => slotted.acts (k := k) taken inCall
  have hlives := slotted.lives taken inCall
  obtain ⟨text, hreject⟩ := away.rejected
  refine ⟨away.at_once, ?_, ?_, away.threads, ?_, ?_⟩ <;>
    simp only [hreject, reject, run.settings_crewed]
  · cases (Settings.configured source).invalidJoin <;> exact isFree_answer hworking
  · cases (Settings.configured source).invalidJoin <;> rfl
  · intro hpolicy
    cases h : (Settings.configured source).invalidJoin with
    | ignore | warn => rfl
    | setError => exact absurd h hpolicy
  · intro hpolicy
    simp only [hpolicy]
    exact slotted.run.codeOf_perform hlives chance.pick (.set _)

/-- What joins do to error codes, in a run with the steps `trace`. -/
structure JoinCodes (source : Settings.Source) (trace : List Moment) (p : Host) : Prop where
  /-- The code of a thread is what it is told when it asks. -/
  told : ∀ who chance, p.isFree who = true →
    (p.step chance (.call who .hasError)).bind Effect.reply =
        some (.flag (decide (p.slots.codeOf who ≠ 0))) ∧
      (p.step chance (.call who .takeError)).bind Effect.reply =
        some (.code (p.slots.codeOf who))
  /-- Whatever the environment names, the code in force is not the one for "no error". -/
  ne_zero : (Settings.configured source).invalidJoinCode ≠ 0
  rejected : ∀ (before : List Moment) (m : Moment) (after : List Moment) (raw : UInt64),
    trace = before ++ m :: after →
    OfJoin m.before m.action (some raw) → Unjoinable before m.action.who raw →
    Rejected source m.before m.action.who m.effect
  /-- The code of a join that was turned away stays until its thread resets it or ends. -/
  lasting : ∀ (before : List Moment) (m : Moment) (after : List Moment) (raw : UInt64),
    trace = before ++ m :: after →
    OfJoin m.before m.action (some raw) → Unjoinable before m.action.who raw →
    (Settings.configured source).invalidJoin = .setError →
    (∀ later ∈ after, ¬later.action.Resets m.action.who) →
    p.slots.codeOf m.action.who = (Settings.configured source).invalidJoinCode
  /-- A join of zero, or one that finds its worker, touches no code at any of its steps. -/
  joinable : ∀ (before : List Moment) (m : Moment) (after : List Moment) (seeks : Option UInt64),
    trace = before ++ m :: after →
    OfJoin m.before m.action seeks →
    (∀ raw, seeks = some raw → ¬Unjoinable before m.action.who raw) →
    m.effect.host.slots = m.before.slots
  /-- No step of any join touches a channel or the code of another thread. -/
  apart : ∀ (before : List Moment) (m : Moment) (after : List Moment) (seeks : Option UInt64),
    trace = before ++ m :: after →
    OfJoin m.before m.action seeks →
    m.effect.host.channels = m.before.channels ∧ m.effect.host.made = m.before.made ∧
      ∀ other ≠ m.action.who, m.effect.host.slots.codeOf other = m.before.slots.codeOf other

lemma reply_errorOp (slotted : Slotted history p) (lives : .ended who ∉ history) (pick : Nat)
    (op : ErrorSlot.Op) : (p.errorOp who pick op).reply = some
      (match op.told (p.slots.codeOf who) with
      | .code code => .code code
      | .flag b => .flag b
      | _ => .nothing) := by
  rw [← slotted.run.answer_perform lives pick op]
  rfl

lemma inCall_of_ofJoin {seeks : Option UInt64} (ofJoin : OfJoin p action seeks) :
    Machine.ofCall action = true := by
  cases ofJoin <;> rfl

/-- A code that a join has left stays, step by step, as long as it is not reset. -/
lemma Run.code_lasts (run : Run source trace p) (htrace : trace = before ++ m :: after)
    (first : m.effect.host.slots.codeOf who = (Settings.configured source).invalidJoinCode)
    (kept : ∀ later ∈ after, ¬later.action.Resets who) :
    p.slots.codeOf who = (Settings.configured source).invalidJoinCode := by
  induction run generalizing after with
  | start => simp at htrace
  | step run chance action taken ih =>
    rcases concat_eq_append_cons htrace with ⟨-, rfl, -⟩ | ⟨rest, rfl, hrest⟩
    · exact first
    · have hbefore := ih hrest fun later hlater => kept later (List.mem_append_left _ hlater)
      have hkept := kept _ (List.mem_append_right _ (List.mem_singleton_self _))
      obtain ⟨history, slotted⟩ := run.slotted
      rcases codeOf_step slotted taken hkept with hsame | ⟨-, hagain⟩
      · exact hsame.trans hbefore
      · rw [hagain, run.settings_crewed]

/-- In every run, whatever the environment says and whatever all threads call. -/
theorem Run.join_codes (run : Run source trace p) : JoinCodes source trace p := by
  have rejected : ∀ (before : List Moment) (m : Moment) (after : List Moment) (raw : UInt64),
      trace = before ++ m :: after →
      OfJoin m.before m.action (some raw) → Unjoinable before m.action.who raw →
      Rejected source m.before m.action.who m.effect := by
    intro before m after raw htrace ofJoin unjoinable
    obtain ⟨earlier, taken⟩ := run.taken_at htrace
    exact rejected_of_turnedAway earlier taken (inCall_of_ofJoin ofJoin)
      (turnedAway_of_unjoinable earlier taken ofJoin unjoinable)
  obtain ⟨-, -, -, hcode⟩ := Settings.isValid_iff.mp (Settings.isValid_configured source)
  refine ⟨fun who chance free => ?_, hcode, rejected, ?_, ?_, ?_⟩
  · obtain ⟨history, slotted⟩ := run.slotted
    have taken : ∀ c, p.step chance (.call who c) = some (p.call who chance c) := fun c =>
      if_pos free
    have lives := slotted.lives (taken .hasError) rfl
    rw [taken, taken]
    exact ⟨reply_errorOp slotted lives chance.pick .isSet,
      reply_errorOp slotted lives chance.pick .take⟩
  · intro before m after raw htrace ofJoin unjoinable policy kept
    exact run.code_lasts htrace
      ((rejected before m after raw htrace ofJoin unjoinable).code policy) kept
  · intro before m after seeks htrace ofJoin joinable
    obtain ⟨earlier, taken⟩ := run.taken_at htrace
    exact slots_of_joinable earlier taken ofJoin joinable
  · intro before m after seeks htrace ofJoin
    obtain ⟨earlier, taken⟩ := run.taken_at htrace
    obtain ⟨history, slotted⟩ := earlier.slotted
    have aside := aside_join taken ofJoin
    exact ⟨aside.channels, aside.made, fun other hne => codeOf_step_ne slotted taken hne⟩

/-- A file can ask for error codes and name one. -/
lemma exists_configured :
    ∃ source, Settings.configured source = ⟨"tether-worker", none, .setError, -7⟩ := by
  let document := "invalid_join = \"set_error\"\ninvalid_join_error_code = -7"
  let path : Bytes := ['c'.toUInt8]
  let source : Settings.Source := ⟨⟨[], [([path], .text document)]⟩, some path⟩
  have hfound : source.files.find? path = some (.text document) := by decide
  have hdecoded : (Settings.decode document).toOption =
      some ⟨"tether-worker", none, .setError, -7⟩ := by decide +kernel
  have hload : (Settings.load source.files (some path)).result =
      .ok ⟨"tether-worker", none, .setError, -7⟩ := by
    simp only [Settings.load, Settings.loadFile, hfound, Settings.content, Settings.ofText]
    cases hdecode : Settings.decode document with
    | error e => simp [hdecode, Except.toOption] at hdecoded
    | ok s =>
      obtain rfl : s = _ := by simpa [hdecode, Except.toOption] using hdecoded
      rfl
  have hpaths : Settings.pathsOf path = [path] := by decide
  refine ⟨source, ?_⟩
  simp only [Settings.configured, Settings.ofSource, source, hpaths]
  rw [Settings.result_loadLayered, Settings.loadAll_cons, hload]
  rfl

/-- One file asks for error codes, and a thread that has set a code of its own joins a number that
was never given out. -/
theorem unknown_handle_overwrites_code : ∃ source trace p, Run source trace p ∧
    (Settings.configured source).invalidJoin = .setError ∧
    (Settings.configured source).invalidJoinCode = -7 ∧
    (∃ (before : List Moment) (m : Moment), trace = before ++ [m] ∧
      m.before.slots.codeOf (.outside 0) = 5 ∧ OfJoin m.before m.action (some 9) ∧
      Unjoinable before m.action.who 9) ∧
    p.slots.codeOf (.outside 0) = -7 ∧ JoinCodes source trace p := by
  obtain ⟨source, hconfigured⟩ := exists_configured
  let calm : Chance := ⟨0, none, 1024⟩
  have fresh : Run source [] _ := .start
  have coded := fresh.step calm (.call (.outside 0) (.setError 5)) rfl
  have joined := coded.step calm (.call (.outside 0) (.join 9)) rfl
  have unjoinable : Unjoinable [] (.outside 0) 9 := ⟨by decide, fun k h => by cases h⟩
  have codes := joined.join_codes
  refine ⟨source, _, _, joined, ?_, ?_, ?_, ?_, codes⟩
  · rw [hconfigured]
  · rw [hconfigured]
  · exact ⟨_, _, rfl, rfl, .asks _ _, unjoinable⟩
  · have hcode := codes.lasting _ _ [] 9 rfl (.asks _ _) unjoinable (by rw [hconfigured]) (by simp)
    rw [hconfigured] at hcode
    exact hcode

end Host
end Strand
