import Mathlib.Data.List.Nodup
import Strand.ErrorSlot
import Strand.Proofs.Lists

/-! Error codes are private to their threads. Threads look for their entries, claim them and use
them in any order among each other, and leave them behind when they end; what a thread is told is
what a register of its own would tell, to which nobody else has access. -/
namespace Strand

namespace ErrorSlot

/-- The value that an operation puts into a register, if it writes to it. -/
def Op.written? : Op → Option Int64
  | .set code => some code
  | .take | .takeCode | .clear => some 0
  | .peek | .isSet => none

/-- What a register that holds `code` tells an operation. -/
def Op.told (code : Int64) : Op → Answer
  | .set _ | .clear => .nothing
  | .take | .peek => .code code
  | .takeCode => .code? (if code = 0 then none else some code)
  | .isSet => .flag (decide (code ≠ 0))

/-- What a register holds after some operations: what was last written to it, and 0 at first. -/
def register (ops : List Op) : Int64 := (ops.filterMap Op.written?).getLast?.getD 0

/-- The answers of a register to the operations `ops`, after the operations `earlier`. -/
def answers (earlier : List Op) : List Op → List Answer
  | [] => []
  | op :: ops => op.told (register earlier) :: answers (earlier ++ [op]) ops

lemma answers_concat (earlier ops : List Op) (op : Op) :
    answers earlier (ops ++ [op]) =
      answers earlier ops ++ [op.told (register (earlier ++ ops))] := by
  induction ops generalizing earlier with
  | nil =>
    rw [List.append_nil]
    rfl
  | cons first ops ih =>
    rw [List.cons_append, answers, ih, List.append_assoc]
    rfl

lemma register_concat (ops : List Op) (op : Op) :
    register (ops ++ [op]) = op.written?.getD (register ops) := by
  rw [register, filterMap_concat]
  cases op.written? <;> simp [register]

/-- An operation on a slot does to its code what it does to a register. -/
lemma Op.run_eq (op : Op) (code : Int64) : op.run code = (op.told code, op.written?.getD code) := by
  cases op with
  | isSet =>
    by_cases h : code = 0 <;> simp [Op.run, Op.told, Op.written?, noError, h]
  | _ => rfl

variable {ι : Type} [DecidableEq ι] {slot : ErrorSlot ι} {who : ι}

lemma claim_of_owner (h : slot.owner = some who) : slot.claim who = slot := if_pos h

lemma claim_of_ne (h : slot.owner ≠ some who) : slot.claim who = ⟨some who, 0⟩ := if_neg h

end ErrorSlot

namespace ErrorSlots
open ErrorSlot (register answers register_concat answers_concat claim_of_owner claim_of_ne)
variable {ι : Type} [DecidableEq ι]

/-- What can be seen of threads that use their error codes. -/
inductive Happening (ι : Type)
  /-- A thread has made the entry it holds its own. -/
  | claimed (who : ι)
  | did (who : ι) (op : ErrorSlot.Op) (answer : ErrorSlot.Answer)
  | ended (who : ι)
  deriving DecidableEq

/-- The thread that a happening is about. -/
def Happening.who : Happening ι → ι
  | .claimed who | .did who _ _ | .ended who => who

/-- The operations of a thread, with the answers it got. -/
def dealings (who : ι) (history : List (Happening ι)) : List (ErrorSlot.Op × ErrorSlot.Answer) :=
  history.filterMap fun
    | .did other op answer => if other = who then some (op, answer) else none
    | .claimed _ => none
    | .ended _ => none

def opsOf (who : ι) (history : List (Happening ι)) : List ErrorSlot.Op :=
  (dealings who history).map Prod.fst

def answersOf (who : ι) (history : List (Happening ι)) : List ErrorSlot.Answer :=
  (dealings who history).map Prod.snd

def put (s : ErrorSlots ι) (i : Nat) (slot : ErrorSlot ι) : ErrorSlots ι :=
  { s with entries := s.entries.set i slot }

/-- The tables that threads can bring about, one access after the other. A thread that has ended
does not come back. -/
inductive Run : List (Happening ι) → ErrorSlots ι → Prop
  | start : Run [] empty
  /-- A thread asks for its entry, and gets one if it has none. -/
  | finds {history s} (run : Run history s) {who : ι} (lives : .ended who ∉ history) (pick : Nat) :
    Run history (s.locate who pick).2
  /-- A thread claims the entry it holds. -/
  | claims {history s} (run : Run history s) {who : ι} {i : Nat} {slot : ErrorSlot ι}
    (holds : s.held.lookup who = some i) (there : s.entries[i]? = some slot) :
    Run (history ++ [.claimed who]) (s.put i (slot.claim who))
  /-- A thread uses the entry it holds, after it has claimed it once. -/
  | uses {history s} (run : Run history s) {who : ι} {i : Nat} {slot : ErrorSlot ι}
    (claimed : .claimed who ∈ history) (holds : s.held.lookup who = some i)
    (there : s.entries[i]? = some slot) (op : ErrorSlot.Op) :
    Run (history ++ [.did who op (op.run slot.code).1])
      (s.put i { slot with code := (op.run slot.code).2 })
  | ends {history s} (run : Run history s) (who : ι) : Run (history ++ [.ended who]) (s.exit who)

variable {history : List (Happening ι)} {s : ErrorSlots ι} {who k : ι} {i : Nat}
  {slot : ErrorSlot ι} {event : Happening ι}

lemma dealings_concat_of_ne (h : event.who ≠ k) :
    dealings k (history ++ [event]) = dealings k history := by
  rw [dealings, filterMap_concat, ← dealings]
  cases event with
  | did who => simp [show who ≠ k from h]
  | claimed | ended => simp

lemma dealings_concat_did (op : ErrorSlot.Op) (answer : ErrorSlot.Answer) :
    dealings who (history ++ [.did who op answer]) = dealings who history ++ [(op, answer)] := by
  rw [dealings, filterMap_concat, ← dealings]
  simp

lemma dealings_concat_claimed : dealings k (history ++ [.claimed who]) = dealings k history := by
  rw [dealings, filterMap_concat, ← dealings]
  simp

/-- A thread that holds no entry gets one that nobody holds. If it is a new one, it is vacant. -/
lemma locate_cases (inside : ∀ i ∈ s.held.map Prod.snd, i < s.entries.length) (who : ι)
    (pick : Nat) :
    (s.held.lookup who = some (s.locate who pick).1 ∧ (s.locate who pick).2 = s) ∨
      (s.held.lookup who = none ∧ ∃ i more,
        s.locate who pick = (i, ⟨s.entries ++ more, (who, i) :: s.held⟩) ∧
        i ∉ s.held.map Prod.snd ∧ i < (s.entries ++ more).length ∧
        ∀ slot ∈ more, slot.owner = none) := by
  unfold locate
  cases hheld : s.held.lookup who with
  | some i => exact .inl ⟨rfl, rfl⟩
  | none =>
    refine .inr ⟨rfl, ?_⟩
    cases hfree : s.free[pick]? with
    | some i =>
      obtain ⟨hlt, hnot⟩ := List.mem_filter.mp (List.mem_of_getElem? hfree)
      refine ⟨i, [], by rw [List.append_nil], ?_, ?_, fun _ h => by cases h⟩
      · simpa using hnot
      · simpa using hlt
    | none =>
      refine ⟨s.entries.length, [.vacant], rfl, fun h => ?_, by simp, ?_⟩
      · exact absurd (inside _ h) (Nat.lt_irrefl _)
      · simp [ErrorSlot.vacant]

/-- What a table of entries has to do with the history that led to it. -/
structure Kept (history : List (Happening ι)) (s : ErrorSlots ι) : Prop where
  /-- A thread holds one entry at most, and shares it with nobody. -/
  holders : (s.held.map Prod.fst).Nodup
  places : (s.held.map Prod.snd).Nodup
  held : ∀ who i, (who, i) ∈ s.held → i < s.entries.length ∧ .ended who ∉ history
  /-- An entry that names a live thread is the one it holds, and has the value of its register. -/
  owned : ∀ who i slot, s.entries[i]? = some slot → slot.owner = some who →
    .ended who ∉ history → (who, i) ∈ s.held ∧ slot.code = register (opsOf who history)
  /-- From its first claim until it ends a thread holds an entry that names it. -/
  claimed : ∀ who, .claimed who ∈ history → .ended who ∉ history →
    ∃ i slot, (who, i) ∈ s.held ∧ s.entries[i]? = some slot ∧ slot.owner = some who
  silent : ∀ who, .claimed who ∉ history → dealings who history = []

namespace Kept

lemma inside (kept : Kept history s) : ∀ i ∈ s.held.map Prod.snd, i < s.entries.length := by
  intro i hi
  obtain ⟨⟨who, _⟩, hmem, rfl⟩ := List.mem_map.mp hi
  exact (kept.held who _ hmem).1

lemma index_eq (kept : Kept history s) {j : Nat} (hi : (who, i) ∈ s.held) (hj : (who, j) ∈ s.held) :
    i = j :=
  congrArg Prod.snd (List.inj_on_of_nodup_map kept.holders hi hj rfl)

lemma holder_eq (kept : Kept history s) (hwho : (who, i) ∈ s.held) (hk : (k, i) ∈ s.held) :
    who = k :=
  congrArg Prod.fst (List.inj_on_of_nodup_map kept.places hwho hk rfl)

lemma empty : Kept ([] : List (Happening ι)) ErrorSlots.empty where
  holders := List.nodup_nil
  places := List.nodup_nil
  held _ _ h := by cases h
  owned _ _ _ h := by cases h
  claimed _ h := by cases h
  silent _ _ := rfl

lemma finds (kept : Kept history s) (lives : .ended who ∉ history) (pick : Nat) :
    Kept history (s.locate who pick).2 := by
  rcases locate_cases kept.inside who pick with
    ⟨-, hsame⟩ | ⟨hnone, i, more, hlocate, hfree, hlt, hvacant⟩
  · rw [hsame]
    exact kept
  have hnobody : ∀ j, (who, j) ∉ s.held := fun j hj => by
    simpa using List.lookup_eq_none_iff.mp hnone _ hj
  rw [hlocate]
  refine ⟨?_, ?_, ?_, ?_, ?_, kept.silent⟩
  · refine List.nodup_cons.mpr ⟨fun h => ?_, kept.holders⟩
    obtain ⟨⟨_, j⟩, hmem, rfl⟩ := List.mem_map.mp h
    exact hnobody j hmem
  · exact List.nodup_cons.mpr ⟨hfree, kept.places⟩
  · intro k j hmem
    rcases List.mem_cons.mp hmem with heq | hmem
    · cases heq
      exact ⟨hlt, lives⟩
    · obtain ⟨hj, hk⟩ := kept.held k j hmem
      exact ⟨by rw [List.length_append]; omega, hk⟩
  · intro k j slot hslot howner hlives
    rcases Nat.lt_or_ge j s.entries.length with hj | hj
    · rw [List.getElem?_append_left hj] at hslot
      obtain ⟨hmem, hcode⟩ := kept.owned k j slot hslot howner hlives
      exact ⟨List.mem_cons_of_mem _ hmem, hcode⟩
    · rw [List.getElem?_append_right hj] at hslot
      rw [hvacant slot (List.mem_of_getElem? hslot)] at howner
      cases howner
  · intro k hclaimed hlives
    obtain ⟨j, slot, hmem, hslot, howner⟩ := kept.claimed k hclaimed hlives
    refine ⟨j, slot, List.mem_cons_of_mem _ hmem, ?_, howner⟩
    rw [List.getElem?_append_left (kept.held k j hmem).1]
    exact hslot

/-- A thread may write its name and the value of its register into the entry it holds. -/
lemma put (kept : Kept history s) (mine : (who, i) ∈ s.held) (actor : event.who = who)
    (goes_on : event ≠ .ended who) (claimed : .claimed who ∈ history ++ [event])
    (owner : slot.owner = some who) (code : slot.code = register (opsOf who (history ++ [event]))) :
    Kept (history ++ [event]) (s.put i slot) := by
  have hi := (kept.held who i mine).1
  -- What is said about the other threads in the history is what was said before.
  have hold : ∀ {k}, k ≠ who → ∀ e : Happening ι, e.who = k →
      (e ∈ history ++ [event] ↔ e ∈ history) := by
    intro k hk e he
    rw [List.mem_append, List.mem_singleton, or_iff_left]
    rintro rfl
    exact hk (he.symm.trans actor)
  have hsame : ∀ {k}, k ≠ who → dealings k (history ++ [event]) = dealings k history := fun hk =>
    dealings_concat_of_ne (actor.symm ▸ hk.symm)
  have hlives : .ended who ∉ history ++ [event] := by
    rw [List.mem_append, List.mem_singleton, not_or]
    exact ⟨(kept.held who i mine).2, fun h => goes_on h.symm⟩
  refine ⟨kept.holders, kept.places, ?_, ?_, ?_, ?_⟩
  · intro k j hmem
    refine ⟨by simpa [ErrorSlots.put] using (kept.held k j hmem).1, ?_⟩
    by_cases hk : k = who
    · subst hk
      exact hlives
    · rw [hold hk _ rfl]
      exact (kept.held k j hmem).2
  · intro k j old hslot howner hends
    by_cases hj : i = j
    · subst hj
      rw [ErrorSlots.put, List.getElem?_set_self hi, Option.some.injEq] at hslot
      subst hslot
      rw [owner, Option.some.injEq] at howner
      subst howner
      exact ⟨mine, code⟩
    · rw [ErrorSlots.put, List.getElem?_set_ne hj] at hslot
      have hk : k ≠ who := by
        rintro rfl
        exact hj (kept.index_eq mine (kept.owned k j old hslot howner (kept.held k i mine).2).1)
      rw [opsOf, hsame hk]
      rw [hold hk _ rfl] at hends
      exact kept.owned k j old hslot howner hends
  · intro k hclaimed hends
    by_cases hk : k = who
    · subst hk
      exact ⟨i, slot, mine, List.getElem?_set_self hi, owner⟩
    · rw [hold hk _ rfl] at hclaimed hends
      obtain ⟨j, old, hmem, hslot, howner⟩ := kept.claimed k hclaimed hends
      refine ⟨j, old, hmem, ?_, howner⟩
      rw [ErrorSlots.put, List.getElem?_set_ne, hslot]
      rintro rfl
      exact hk (kept.holder_eq hmem mine)
  · intro k hsilent
    have hk : k ≠ who := by
      rintro rfl
      exact hsilent claimed
    rw [hsame hk]
    exact kept.silent k fun h => hsilent (List.mem_append_left _ h)

/-- An entry that does not name its holder is one that the holder has not claimed yet. -/
lemma claims (kept : Kept history s) (mine : (who, i) ∈ s.held)
    (there : s.entries[i]? = some slot) :
    Kept (history ++ [.claimed who]) (s.put i (slot.claim who)) := by
  have hlives := (kept.held who i mine).2
  have hclaimed : .claimed who ∈ history ++ [.claimed who] := by simp
  by_cases howner : slot.owner = some who
  · rw [claim_of_owner howner]
    apply kept.put mine rfl (by simp) hclaimed howner
    rw [opsOf, dealings_concat_claimed]
    exact (kept.owned who i slot there howner hlives).2
  · rw [claim_of_ne howner]
    apply kept.put mine rfl (by simp) hclaimed rfl
    rw [opsOf, dealings_concat_claimed, kept.silent who]
    · rfl
    · intro hbefore
      obtain ⟨j, old, hmem, hold, hnames⟩ := kept.claimed who hbefore hlives
      rw [kept.index_eq hmem mine, there, Option.some.injEq] at hold
      exact howner (hold ▸ hnames)

/-- The entry of a thread that has claimed it holds the value of its register. -/
lemma there (kept : Kept history s) (claimed : .claimed who ∈ history) (mine : (who, i) ∈ s.held)
    (there : s.entries[i]? = some slot) :
    slot.owner = some who ∧ slot.code = register (opsOf who history) := by
  have hlives := (kept.held who i mine).2
  obtain ⟨j, old, hmem, hold, hnames⟩ := kept.claimed who claimed hlives
  rw [kept.index_eq hmem mine, there, Option.some.injEq] at hold
  subst hold
  exact ⟨hnames, (kept.owned who i slot there hnames hlives).2⟩

lemma uses (kept : Kept history s) (claimed : .claimed who ∈ history) (mine : (who, i) ∈ s.held)
    (there : s.entries[i]? = some slot) (op : ErrorSlot.Op) :
    Kept (history ++ [.did who op (op.run slot.code).1])
      (s.put i { slot with code := (op.run slot.code).2 }) := by
  obtain ⟨howner, hcode⟩ := kept.there claimed mine there
  refine kept.put mine rfl (by simp) (List.mem_append_left _ claimed) howner ?_
  rw [opsOf, dealings_concat_did, List.map_append, ← opsOf, List.map_singleton, register_concat,
    ← hcode, op.run_eq]

lemma ends (kept : Kept history s) (who : ι) : Kept (history ++ [.ended who]) (s.exit who) := by
  have hsub : (s.exit who).held.Sublist s.held := List.filter_sublist
  have hmem : ∀ {k j}, (k, j) ∈ (s.exit who).held ↔ (k, j) ∈ s.held ∧ k ≠ who := by
    intro k j
    rw [exit, List.mem_filter, decide_eq_true_iff]
  have hends : ∀ k, (.ended k : Happening ι) ∉ history ++ [.ended who] ↔
      .ended k ∉ history ∧ k ≠ who := by
    intro k
    simp
  have hsame : ∀ {k}, dealings k (history ++ [.ended who]) = dealings k history := by
    intro k
    rw [dealings, filterMap_concat, ← dealings]
    simp
  refine ⟨kept.holders.sublist (hsub.map _), kept.places.sublist (hsub.map _), ?_, ?_, ?_, ?_⟩
  · intro k j h
    obtain ⟨h, hk⟩ := hmem.mp h
    exact ⟨(kept.held k j h).1, (hends k).mpr ⟨(kept.held k j h).2, hk⟩⟩
  · intro k j slot hslot howner h
    obtain ⟨hlives, hk⟩ := (hends k).mp h
    obtain ⟨hheld, hcode⟩ := kept.owned k j slot hslot howner hlives
    rw [opsOf, hsame]
    exact ⟨hmem.mpr ⟨hheld, hk⟩, hcode⟩
  · intro k hclaimed h
    obtain ⟨hlives, hk⟩ := (hends k).mp h
    obtain ⟨j, slot, hheld, hslot, howner⟩ := kept.claimed k (by simpa using hclaimed) hlives
    exact ⟨j, slot, hmem.mpr ⟨hheld, hk⟩, hslot, howner⟩
  · intro k h
    rw [hsame]
    exact kept.silent k fun hclaimed => h (List.mem_append_left _ hclaimed)

end Kept

theorem Run.kept (run : Run history s) : Kept history s := by
  induction run with
  | start => exact .empty
  | finds _ lives pick ih => exact ih.finds lives pick
  | claims _ holds there ih => exact ih.claims (mem_of_lookup holds) there
  | uses _ claimed holds there op ih => exact ih.uses claimed (mem_of_lookup holds) there op
  | ends _ who ih => exact ih.ends who

/-- What a thread has been told is what its register tells. -/
theorem Run.told (run : Run history s) (k : ι) :
    answersOf k history = answers [] (opsOf k history) := by
  have hother : ∀ {history : List (Happening ι)} {event : Happening ι},
      dealings k (history ++ [event]) = dealings k history →
      answersOf k history = answers [] (opsOf k history) →
      answersOf k (history ++ [event]) = answers [] (opsOf k (history ++ [event])) := by
    intro history event h ih
    rw [answersOf, opsOf, h]
    exact ih
  induction run with
  | start => rfl
  | finds _ _ _ ih => exact ih
  | claims _ _ _ ih => exact hother dealings_concat_claimed ih
  | @uses history s run who i slot claimed holds there op ih =>
    by_cases hk : who = k
    · subst hk
      obtain ⟨-, hcode⟩ := run.kept.there claimed (mem_of_lookup holds) there
      rw [answersOf, opsOf, dealings_concat_did, List.map_append, List.map_append, ← answersOf,
        ← opsOf, List.map_singleton, List.map_singleton, answers_concat, ih, List.nil_append,
        op.run_eq, hcode]
    · exact hother (dealings_concat_of_ne hk) ih
  | ends _ who ih => exact hother (by rw [dealings, filterMap_concat]; simp [dealings]) ih

lemma perform_eq {t : ErrorSlots ι} {pick : Nat} (hlocate : s.locate who pick = (i, t))
    (there : t.entries[i]? = some slot) (op : ErrorSlot.Op) :
    s.perform who pick op = ((op.run (slot.claim who).code).1,
      (t.put i (slot.claim who)).put i
        { slot.claim who with code := (op.run (slot.claim who).code).2 }) := by
  simp only [ErrorSlots.perform, current, hlocate, there, Option.getD_some]
  rfl

/-- A live thread can do all that can be done with a code. It then finds its entry, claims it and
uses it, and nobody else comes in between. -/
theorem Run.perform (run : Run history s) (who : ι) (lives : .ended who ∉ history) (pick : Nat)
    (op : ErrorSlot.Op) : Run (history ++ [.claimed who] ++ [.did who op (s.perform who pick op).1])
      (s.perform who pick op).2 := by
  have found := run.finds lives pick
  have holds : (s.locate who pick).2.held.lookup who = some (s.locate who pick).1 := by
    rcases locate_cases run.kept.inside who pick with ⟨hheld, hsame⟩ | ⟨-, i, more, hlocate, -⟩
    · rw [hsame]
      exact hheld
    · rw [hlocate]
      exact List.lookup_cons_self
  obtain ⟨⟨i, t⟩, hlocate⟩ : ∃ found, s.locate who pick = found := ⟨_, rfl⟩
  rw [hlocate] at found holds
  have hlt := (found.kept.held who i (mem_of_lookup holds)).1
  have there := List.getElem?_eq_getElem hlt
  rw [perform_eq hlocate there op]
  exact (found.claims holds there).uses (by simp) holds (List.getElem?_set_self hlt) op

/-- The codes of the thread `who` are its own, after a run that has led to `s`. -/
structure Private (history : List (Happening ι)) (s : ErrorSlots ι) (who : ι) : Prop where
  told : answersOf who history = answers [] (opsOf who history)
  /-- It goes on like this, whichever entry the thread is given if it has none. -/
  next : .ended who ∉ history → ∀ pick op,
    (s.perform who pick op).1 = op.told (register (opsOf who history))
  /-- A thread that does the same in another run is told the same. -/
  alike : ∀ {κ : Type} [DecidableEq κ] (history' : List (Happening κ)) (s' : ErrorSlots κ) (k : κ),
    Run history' s' → opsOf k history' = opsOf who history →
      answersOf k history' = answersOf who history

theorem Run.codes_are_private (run : Run history s) (who : ι) : Private history s who where
  told := run.told who
  next lives pick op := by
    have told := (run.perform who lives pick op).told who
    have before : answersOf who (history ++ [.claimed who]) = answersOf who history ∧
        opsOf who (history ++ [.claimed who]) = opsOf who history := by
      rw [answersOf, opsOf, dealings_concat_claimed]
      exact ⟨rfl, rfl⟩
    rw [answersOf, opsOf, dealings_concat_did, List.map_append, List.map_append, ← answersOf,
      ← opsOf, before.1, before.2, run.told who, List.map_singleton, List.map_singleton,
      answers_concat, List.nil_append] at told
    exact (List.cons.inj (List.append_cancel_left told)).1
  alike history' s' k run' same := by
    rw [run'.told k, run.told who, same]

/-- A thread ends with a code left in its entry, and the next one to come is given that entry. -/
theorem inherited_entry_starts_over : ∃ s t : ErrorSlots Nat,
    Run [.claimed 0, .did 0 (.set 7) .nothing, .ended 0] s ∧
    s.entries = [⟨some 0, 7⟩] ∧ s.held = [] ∧
    Run [.claimed 0, .did 0 (.set 7) .nothing, .ended 0, .claimed 1, .did 1 .peek (.code 0)] t ∧
    t.entries = [⟨some 1, 0⟩] ∧
    Private [.claimed 0, .did 0 (.set 7) .nothing, .ended 0, .claimed 1, .did 1 .peek (.code 0)]
      t 1 := by
  have left := (Run.start.perform 0 (by simp) 0 (.set 7)).ends 0
  have inherited := left.perform 1 (by simp) 0 .peek
  exact ⟨_, _, left, rfl, rfl, inherited, rfl, inherited.codes_are_private 1⟩

end ErrorSlots
end Strand
