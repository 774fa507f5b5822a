import Mathlib.Data.List.Nodup
import Strand.Proofs.Host.Stakes
import Strand.Proofs.Lists

/-! Runs of a host: any steps of any threads in any order, whatever is left to the system. Most
steps are quiet, which means that they leave the threads' table and the handles of all workers
alone; what is not quiet is a part of a spawn or of a join. -/
namespace Strand

/-- The activities that have nothing to do with a worker. -/
def Activity.isPlain : Activity → Bool
  | .launching _ _ | .enrolling _ | .removing _ | .joining _ => false
  | _ => true

namespace Host

/-- One step of a run: where it was taken, what it was, and what it came to. -/
structure Moment where
  before : Host
  chance : Chance
  action : Action
  effect : Effect

/-- The runs of a host with all their steps. -/
inductive Run (source : Settings.Source) : List Moment → Host → Prop
  | start : Run source [] (ofSource source)
  | step {trace p effect} (run : Run source trace p) (chance : Chance) (action : Action)
      (taken : p.step chance action = some effect) :
      Run source (trace ++ [⟨p, chance, action, effect⟩]) effect.host

/-- What was done at a moment of a run was possible there. -/
lemma Run.taken_at {source : Settings.Source} {trace before after : List Moment} {m : Moment}
    {p : Host} (run : Run source trace p) (htrace : trace = before ++ m :: after) :
    Run source before m.before ∧ m.before.step m.chance m.action = some m.effect := by
  induction run generalizing after with
  | start => simp at htrace
  | step run chance action taken ih =>
    rcases concat_eq_append_cons htrace with ⟨rfl, rfl, -⟩ | ⟨rest, rfl, rfl⟩
    · exact ⟨run, taken⟩
    · exact ih rfl

section
variable {p : Host} {who : Party} {a : Activity} {more : Option Activity}

/-- The calls in progress once `who` goes on with `more`, or is done. -/
def busyAfter (p : Host) (who : Party) (more : Option Activity) : List (Party × Activity) :=
  (more.map fun a => (who, a)).toList ++ p.busy.filter fun entry => entry.1 ≠ who

lemma mem_busyAfter {who' : Party} :
    (who', a) ∈ p.busyAfter who more ↔
      who' = who ∧ more = some a ∨ who' ≠ who ∧ (who', a) ∈ p.busy := by
  cases more with
  | none => simp [busyAfter, and_comm]
  | some b =>
    simp only [busyAfter, Option.map_some, Option.toList_some, List.mem_append, List.mem_singleton,
      List.mem_filter, Prod.mk.injEq, decide_eq_true_eq, Option.some.injEq]
    rw [@eq_comm _ a b, @and_comm (who' ≠ who)]

lemma lookup_busyAfter (other : Party) :
    (p.busyAfter who more).lookup other = if other = who then more else p.busy.lookup other := by
  have hrest := lookup_filter_ne p.busy who other
  cases more with
  | none => exact hrest
  | some b =>
    change List.lookup other ((who, b) :: p.busy.filter fun entry => entry.1 ≠ who) = _
    by_cases h : other = who
    · subst h
      rw [List.lookup_cons_self, if_pos rfl]
    · rw [lookup_cons_ne h, hrest, if_neg h, if_neg h]

lemma nodup_busyAfter (hnodup : (p.busy.map Prod.fst).Nodup) :
    ((p.busyAfter who more).map Prod.fst).Nodup := by
  have hrest : ((p.busy.filter fun entry => entry.1 ≠ who).map Prod.fst).Nodup :=
    hnodup.sublist (List.filter_sublist.map _)
  cases more with
  | none => exact hrest
  | some b =>
    refine List.nodup_cons.mpr ⟨?_, hrest⟩
    intro hmem
    obtain ⟨entry, hentry, hwho⟩ := List.mem_map.mp hmem
    have hne : entry.1 ≠ who := by simpa using (List.mem_filter.mp hentry).2
    exact hne hwho

end

/-- A step of `who` that touches no handle of a worker. -/
structure Quiet (p : Host) (who : Party) (p' : Host) : Prop where
  threads : p'.threads = p.threads
  stakes : p'.stake? = p.stake?
  busy : p'.busy = p.busy ∨
    ∃ more, p'.busy = p.busyAfter who more ∧ ∀ a, more = some a → a.isPlain = true

section
variable {p q : Host} {who : Party} {lines : List Log.Line} {effect : Effect}

lemma quiet_answer (threads : q.threads = p.threads) (stakes : q.stake? = p.stake?)
    (busy : q.busy = p.busy) (reply : Reply) : Quiet p who (q.answer who lines reply).host where
  threads := threads
  stakes := stakes
  busy := .inr ⟨none, by simp [answer, busyAfter, busy], by simp⟩

lemma quiet_proceed (p : Host) {a : Activity} (hplain : a.isPlain = true) :
    Quiet p who (p.proceed who lines a).host where
  threads := rfl
  stakes := rfl
  busy := .inr ⟨some a, rfl, by simpa using hplain⟩

lemma stakes_crewed (p : Host) : { p with crew := some p.crewed.1 }.stake? = p.stake? := by
  funext k
  exact p.stake?_crewed

/-- A rejected join is answered at once, by its policy alone. -/
structure TurnedAway (p : Host) (who : Party) (pick : Nat) (effect : Effect) : Prop where
  rejected : ∃ text, effect = p.reject who pick text
  at_once : effect.reply = some .nothing
  threads : effect.host.threads = p.threads
  channels : effect.host.channels = p.channels
  made : effect.host.made = p.made

lemma turnedAway_reject (p : Host) (who : Party) (pick : Nat) (text : String) :
    TurnedAway p who pick (p.reject who pick text) := by
  refine ⟨⟨text, rfl⟩, ?_, ?_, ?_, ?_⟩ <;>
  · simp only [reject]
    cases p.crewed.1.settings.invalidJoin <;> rfl

lemma quiet_reject (p : Host) (who : Party) (pick : Nat) (text : String) :
    Quiet p who (p.reject who pick text).host := by
  simp only [reject]
  cases p.crewed.1.settings.invalidJoin <;>
  · apply quiet_answer
    exacts [rfl, p.stakes_crewed, rfl]

lemma quiet_newChannel (p : Host) (who : Party) (memory : Nat) (capacity : Int64) :
    Quiet p who (p.newChannel who memory capacity).host := by
  simp only [newChannel]
  split
  · apply quiet_answer <;> rfl
  · split
    · apply quiet_answer <;> rfl
    · apply quiet_answer <;> rfl

lemma quiet_lookup (p : Host) (who : Party) (entry : String) (ch : UInt64) (default : Reply)
    {activity : Nat → Activity} (hplain : ∀ n, (activity n).isPlain = true) :
    Quiet p who (p.lookup who entry ch default activity).host := by
  simp only [lookup]
  split
  · apply quiet_answer <;> rfl
  next n _ => exact quiet_proceed p (hplain n)

lemma quiet_release (p : Host) (who : Party) (ch : UInt64) :
    Quiet p who (p.release who ch).host := by
  simp only [release]
  split
  · apply quiet_answer <;> rfl
  · apply quiet_answer <;> rfl

lemma quiet_errorOp (p : Host) (who : Party) (pick : Nat) (op : ErrorSlot.Op) :
    Quiet p who (p.errorOp who pick op).host := by
  apply quiet_answer <;> rfl

/-- All first steps are quiet but those of a spawn and of a join. -/
theorem quiet_call (p : Host) (who : Party) (chance : Chance) {c : Call UInt64}
    (hspawn : ∀ mode given, c ≠ .spawn mode given) (hjoin : ∀ h, c ≠ .join h) :
    Quiet p who (p.call who chance c).host := by
  cases c with
  | newChannel capacity => exact quiet_newChannel p who chance.memory capacity
  | send | receive | close | hasData | isClosed => exact quiet_lookup p who _ _ _ fun _ => rfl
  | receiveTagged ch out =>
    cases out with
    | none => apply quiet_answer <;> rfl
    | some out => exact quiet_lookup p who _ _ _ fun _ => rfl
  | release ch => exact quiet_release p who ch
  | setError | takeError | hasError | clearError => exact quiet_errorOp p who _ _
  | spawn mode given => exact absurd rfl (hspawn mode given)
  | join h => exact absurd rfl (hjoin h)
  | sleep => apply quiet_answer <;> rfl
  | liveCount =>
    apply quiet_answer
    exacts [rfl, p.stakes_crewed, rfl]

lemma quiet_turn {ρ : Type} {n : Nat} {reply : ρ → Reply}
    {act : Shared Party Int64 → Turn Party ρ × Shared Party Int64}
    (h : p.turn who n reply act = some effect) : Quiet p who effect.host := by
  simp only [turn] at h
  split at h
  · cases h
  · split at h
    · cases h
    · split at h
      · cases h
        exact ⟨rfl, rfl, .inl rfl⟩
      · cases h
        apply quiet_answer <;> rfl

lemma quiet_look {n : Nat} {see : Channel Int64 → Bool} (h : p.look who n see = some effect) :
    Quiet p who effect.host := by
  obtain ⟨shared, -, rfl⟩ := Option.map_eq_some_iff.mp h
  apply quiet_answer <;> rfl

/-- The steps of a call on a channel are quiet. -/
theorem quiet_continue {a : Activity} (hplain : a.isPlain = true) {chance : Chance}
    (h : p.continue? who chance a = some effect) : Quiet p who effect.host := by
  cases a with
  | sending | receiving | receivingInto => exact quiet_turn h
  | closing =>
    simp only [continue?] at h
    exact quiet_turn h
  | askingForData | askingWhetherClosed => exact quiet_look h
  | launching | enrolling | removing | joining => cases hplain

/-- A worker that begins, stops or leaves does not change what is at stake in it. -/
lemma quiet_crewStep (who : Party) {k : Nat} {deed : Crew.Deed} (hneutral : deed.isNeutral = true)
    (h : p.crewStep (.worker k deed) = some effect) : Quiet p who effect.host := by
  obtain ⟨⟨crew', report⟩, hstep, rfl⟩ := Option.map_eq_some_iff.mp h
  obtain ⟨crew, hcrew, hstep⟩ := Option.bind_eq_some_iff.mp hstep
  refine ⟨rfl, ?_, .inl rfl⟩
  funext j
  rw [stake?, stake?, hcrew]
  exact congrFun (Crew.stake?_neutral hneutral hstep) j

end

end Host
end Strand
