import Strand.Proofs.Handle.Registry

/-! Any run of calls on a table, with a log of what they came to. The log alone says which numbers
reach a value: those that were given out and not taken back since. -/
namespace Strand.Table
variable {α : Type}

/-- What the users of a table call. -/
inductive Op (α : Type)
  | insert (value : α)
  | remove (h : Handle)
  | removeRaw (raw : UInt64)
  /-- A look at a value, which is what the function in the call is given. -/
  | inspect (h : Handle)
  | findRaw (raw : UInt64)
  deriving DecidableEq, Repr

/-- The number that a call names, if it names one. -/
def Op.target? : Op α → Option UInt64
  | .insert _ => none
  | .remove h => some h.toRaw
  | .removeRaw raw => some raw
  | .inspect h => some h.toRaw
  | .findRaw raw => some raw

inductive Outcome (α : Type)
  | issued (h : Handle)
  | yielded (value : α)
  | failed (e : HandleError)
  deriving DecidableEq, Repr

/-- One call. A call that fails leaves the table as it is. -/
def perform (t : Table α) : Op α → Outcome α × Table α
  | .insert value =>
    match t.insert value with
    | .ok (h, t) => (.issued h, t)
    | .error e => (.failed e, t)
  | .remove h =>
    match t.remove h with
    | .ok (value, t) => (.yielded value, t)
    | .error e => (.failed e, t)
  | .removeRaw raw =>
    match t.removeRaw raw with
    | .ok (value, t) => (.yielded value, t)
    | .error e => (.failed e, t)
  | .inspect h =>
    match t.inspect h id with
    | .ok value => (.yielded value, t)
    | .error e => (.failed e, t)
  | .findRaw raw =>
    match t.findRaw raw with
    | .ok value => (.yielded value, t)
    | .error e => (.failed e, t)

/-- Calls one after another, and the log of what each came to. -/
def performAll (t : Table α) : List (Op α) → List (Op α × Outcome α) × Table α
  | [] => ([], t)
  | op :: ops =>
    let (outcome, t) := t.perform op
    let (log, t) := t.performAll ops
    ((op, outcome) :: log, t)

namespace Ledger

def issued? : Op α × Outcome α → Option (UInt64 × α)
  | (.insert value, .issued h) => some (h.toRaw, value)
  | _ => none

def removed? : Op α × Outcome α → Option UInt64
  | (.remove h, .yielded _) => some h.toRaw
  | (.removeRaw raw, .yielded _) => some raw
  | _ => none

/-- The numbers that insertions gave out, each with the value it was given out for. -/
def issued (log : List (Op α × Outcome α)) : List (UInt64 × α) := log.filterMap issued?

/-- The numbers under which values were taken back. -/
def removed (log : List (Op α × Outcome α)) : List UInt64 := log.filterMap removed?

/-- A number was given out for a value and has not been taken back since. -/
def Stored (log : List (Op α × Outcome α)) (raw : UInt64) (v : α) : Prop :=
  ∃ before entry after, log = before ++ entry :: after ∧ issued? entry = some (raw, v) ∧
    raw ∉ removed after

variable {log : List (Op α × Outcome α)} {entry : Op α × Outcome α} {raw : UInt64} {v : α}

lemma issued_concat : issued (log ++ [entry]) = issued log ++ (issued? entry).toList :=
  filterMap_concat issued? log entry

lemma removed_concat : removed (log ++ [entry]) = removed log ++ (removed? entry).toList :=
  filterMap_concat removed? log entry

theorem stored_concat_iff :
    Stored (log ++ [entry]) raw v ↔
      issued? entry = some (raw, v) ∨ Stored log raw v ∧ removed? entry ≠ some raw := by
  constructor
  · rintro ⟨before, first, after, hlog, hissued, hnot⟩
    rcases concat_eq_append_cons hlog with ⟨-, rfl, -⟩ | ⟨rest, rfl, hrest⟩
    · exact .inl hissued
    · rw [removed_concat, List.mem_append, not_or, Option.mem_toList] at hnot
      exact .inr ⟨⟨before, first, rest, hrest, hissued, hnot.1⟩, hnot.2⟩
  · rintro (hissued | ⟨⟨before, first, after, rfl, hissued, hnot⟩, hremoved⟩)
    · exact ⟨log, entry, [], rfl, hissued, List.not_mem_nil⟩
    · refine ⟨before, first, after ++ [entry], by simp, hissued, ?_⟩
      rw [removed_concat, List.mem_append, not_or, Option.mem_toList]
      exact ⟨hnot, hremoved⟩

end Ledger

open Ledger

variable {t t' : Table α} {log : List (Op α × Outcome α)}

lemma findRaw_toRaw (h : Handle) : t.findRaw h.toRaw = t.find h := by
  rw [findRaw, h.ofRaw_toRaw]

/-- A call yields a value exactly if it names a number that reaches this value. -/
theorem perform_yields_iff {op : Op α} {v : α} :
    (t.perform op).1 = .yielded v ↔ ∃ raw, op.target? = some raw ∧ t.findRaw raw = .ok v := by
  cases op with
  | insert value =>
    simp only [perform, Op.target?]
    cases t.insert value <;> simp
  | remove h =>
    simp only [perform, Op.target?, Option.some.injEq, exists_eq_left', findRaw_toRaw,
      ← exists_remove_iff]
    cases t.remove h <;> simp [Prod.ext_iff]
  | removeRaw raw =>
    simp only [perform, Op.target?, Option.some.injEq, exists_eq_left', ← exists_removeRaw_iff]
    cases t.removeRaw raw <;> simp [Prod.ext_iff]
  | inspect h =>
    simp only [perform, Op.target?, Option.some.injEq, exists_eq_left', findRaw_toRaw, inspect]
    cases t.find h <;> simp [Except.map]
  | findRaw raw =>
    simp only [perform, Op.target?, Option.some.injEq, exists_eq_left']
    cases t.findRaw raw <;> simp

/-- A call gives a handle out, takes one back, or leaves the table as it is. -/
theorem perform_cases (sound : t.Sound) (op : Op α) :
    (∃ h v, issued? (op, (t.perform op).1) = some (h.toRaw, v) ∧
        removed? (op, (t.perform op).1) = none ∧ Inserted t v h (t.perform op).2) ∨
      (∃ h v, issued? (op, (t.perform op).1) = none ∧
        removed? (op, (t.perform op).1) = some h.toRaw ∧ Removed t h v (t.perform op).2) ∨
      (issued? (op, (t.perform op).1) = none ∧ removed? (op, (t.perform op).1) = none ∧
        (t.perform op).2 = t) := by
  cases op with
  | insert value =>
    simp only [perform]
    cases hstep : t.insert value with
    | ok result => exact .inl ⟨result.1, value, rfl, rfl, insert_cases sound hstep⟩
    | error e => exact .inr (.inr ⟨rfl, rfl, rfl⟩)
  | remove h =>
    simp only [perform]
    cases hstep : t.remove h with
    | ok result => exact .inr (.inl ⟨h, result.1, rfl, rfl, remove_cases hstep⟩)
    | error e => exact .inr (.inr ⟨rfl, rfl, rfl⟩)
  | removeRaw raw =>
    simp only [perform]
    cases hstep : t.removeRaw raw with
    | ok result =>
      obtain ⟨h, rfl, hremove⟩ := removeRaw_eq_ok_iff.mp hstep
      exact .inr (.inl ⟨h, result.1, rfl, rfl, remove_cases hremove⟩)
    | error e => exact .inr (.inr ⟨rfl, rfl, rfl⟩)
  | inspect h =>
    simp only [perform]
    cases t.inspect h id <;> exact .inr (.inr ⟨rfl, rfl, rfl⟩)
  | findRaw raw =>
    simp only [perform]
    cases t.findRaw raw <;> exact .inr (.inr ⟨rfl, rfl, rfl⟩)

/-- A log that tells the whole life of a table. -/
structure Recorded (log : List (Op α × Outcome α)) (t : Table α) : Prop where
  tracks : Tracks t (issued log) (removed log)
  stored_iff : ∀ raw v, Stored log raw v ↔ (raw, v) ∈ issued log ∧ raw ∉ removed log
  answers : ∀ before op outcome after, log = before ++ (op, outcome) :: after →
    ∀ v, outcome = .yielded v ↔ ∃ raw, op.target? = some raw ∧ Stored before raw v

namespace Recorded

theorem empty : Recorded [] (Table.empty : Table α) where
  tracks := Tracks.empty
  stored_iff raw v := by
    refine iff_of_false ?_ (by simp [issued])
    rintro ⟨before, entry, after, hlog, -⟩
    simp at hlog
  answers before op outcome after hlog := by simp at hlog

lemma findRaw_iff (recorded : Recorded log t) (raw : UInt64) (v : α) :
    t.findRaw raw = .ok v ↔ Stored log raw v :=
  (recorded.tracks.findRaw_iff raw v).trans (recorded.stored_iff raw v).symm

/-- The answer to one more call is right, as were those before. -/
lemma answers_concat (recorded : Recorded log t) (call : Op α) :
    ∀ before op outcome after,
      log ++ [(call, (t.perform call).1)] = before ++ (op, outcome) :: after →
      ∀ v, outcome = .yielded v ↔ ∃ raw, op.target? = some raw ∧ Stored before raw v := by
  intro before op outcome after hlog v
  rcases concat_eq_append_cons hlog with ⟨rfl, hentry, -⟩ | ⟨rest, -, hrest⟩
  · cases hentry
    rw [perform_yields_iff]
    simp only [recorded.findRaw_iff]
  · exact recorded.answers before op outcome rest hrest v

theorem perform (recorded : Recorded log t) (op : Op α) :
    Recorded (log ++ [(op, (t.perform op).1)]) (t.perform op).2 := by
  have tracks := recorded.tracks
  rcases perform_cases tracks.sound op with
    ⟨h, v, hissued, hremoved, step⟩ | ⟨h, v, hissued, hremoved, step⟩ | ⟨hissued, hremoved, hsame⟩
  · refine ⟨?_, ?_, recorded.answers_concat op⟩
    · rw [issued_concat, removed_concat, hissued, hremoved]
      simpa using tracks.insert step
    · intro raw w
      have hfresh : h.toRaw ∉ removed log := fun hmem =>
        tracks.not_mem_of_inserted step (tracks.removed_subset hmem)
      rw [stored_concat_iff, recorded.stored_iff, issued_concat, removed_concat, hissued, hremoved]
      simp only [Option.some.injEq, ne_eq, reduceCtorEq, not_false_eq_true, and_true,
        Option.toList_some, Option.toList_none, List.append_nil, List.mem_append,
        List.mem_singleton, or_and_right]
      constructor
      · rintro (heq | hold)
        · cases heq
          exact .inr ⟨rfl, hfresh⟩
        · exact .inl hold
      · rintro (hold | ⟨heq, -⟩)
        · exact .inr hold
        · exact .inl heq.symm
  · refine ⟨?_, ?_, recorded.answers_concat op⟩
    · rw [issued_concat, removed_concat, hissued, hremoved]
      simpa using tracks.remove step
    · intro raw w
      rw [stored_concat_iff, recorded.stored_iff, issued_concat, removed_concat, hissued, hremoved]
      simp only [reduceCtorEq, false_or, ne_eq, Option.some.injEq, Option.toList_none,
        Option.toList_some, List.append_nil, List.mem_append, List.mem_singleton, not_or, and_assoc,
        eq_comm]
  · rw [hsame]
    refine ⟨?_, ?_, recorded.answers_concat op⟩
    · rw [issued_concat, removed_concat, hissued, hremoved]
      simpa using tracks
    · intro raw w
      rw [stored_concat_iff, recorded.stored_iff, issued_concat, removed_concat, hissued, hremoved]
      simp

theorem performAll (recorded : Recorded log t) (ops : List (Op α)) :
    Recorded (log ++ (t.performAll ops).1) (t.performAll ops).2 := by
  induction ops generalizing t log with
  | nil =>
    rw [Table.performAll, List.append_nil]
    exact recorded
  | cons op ops ih =>
    have hrest := ih (recorded.perform op)
    rw [List.append_assoc] at hrest
    exact hrest

end Recorded

/-- The log of any calls in any order tells the whole life of the table they are made on. -/
theorem recorded_performAll (ops : List (Op α)) :
    Recorded ((empty : Table α).performAll ops).1 ((empty : Table α).performAll ops).2 := by
  have recorded := Recorded.empty.performAll (α := α) ops
  rwa [List.nil_append] at recorded

/-- What the log says, the table does. -/
structure Refines (log : List (Op α × Outcome α)) (t : Table α) : Prop where
  distinct : ((issued log).map Prod.fst).Nodup
  findRaw_iff : ∀ raw v, t.findRaw raw = .ok v ↔ Stored log raw v
  removeRaw_iff : ∀ raw v, (∃ t', t.removeRaw raw = .ok (v, t')) ↔ Stored log raw v
  remove_iff : ∀ h v, (∃ t', t.remove h = .ok (v, t')) ↔ Stored log h.toRaw v
  inspect_iff : ∀ {β : Type} (h : Handle) (f : α → β) (b : β),
    t.inspect h f = .ok b ↔ ∃ v, Stored log h.toRaw v ∧ f v = b
  size_eq : t.size + (removed log).length = (issued log).length
  /-- Every answer in the log was right at its time. -/
  answers : ∀ before op outcome after, log = before ++ (op, outcome) :: after →
    ∀ v, outcome = .yielded v ↔ ∃ raw, op.target? = some raw ∧ Stored before raw v

/-- After any calls in any order, a table is the map that its log describes: no number is given out
twice, and a number reaches a value exactly if it was given out for it and not taken back since. -/
theorem performAll_refines (ops : List (Op α)) :
    Refines ((empty : Table α).performAll ops).1 ((empty : Table α).performAll ops).2 := by
  have recorded := Recorded.empty.performAll (α := α) ops
  rw [List.nil_append] at recorded
  have hfindRaw := recorded.findRaw_iff
  refine ⟨recorded.tracks.nodup, hfindRaw, fun raw v => ?_, fun h v => ?_, fun h f b => ?_,
    recorded.tracks.size_eq, recorded.answers⟩
  · rw [exists_removeRaw_iff]
    exact hfindRaw raw v
  · rw [exists_remove_iff, ← findRaw_toRaw]
    exact hfindRaw h.toRaw v
  · simp only [← hfindRaw, findRaw_toRaw, inspect]
    cases ((empty : Table α).performAll ops).2.find h with
    | error e => simp [Except.map]
    | ok v => simp [Except.map]

end Strand.Table
