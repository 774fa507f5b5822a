import Mathlib.Data.List.Dedup
import Strand.Proofs.Settings.Layers

/-! Layers that come again. Whatever a layer gives, it gives again when it is laid on top once more,
and what lay in between gives what it leaves open. So of a layer that comes several times only the
last occurrence counts, and of files that are named several times all others can be left out. -/
namespace Strand.Settings

/-- A layer that comes on top decides as if it had not been laid before as well. -/
theorem merge_again (s a b : Settings) : ((s.merge a).merge b).merge a = (s.merge b).merge a := by
  simp only [merge, Settings.mk.injEq]
  refine ⟨?_, ?_, ?_, ?_⟩ <;> split <;> rfl

lemma merge_merge_self (a b : Settings) : a.merge (b.merge a) = b.merge a := by
  have hagain := merge_again defaults a b
  rwa [defaults_merge, defaults_merge, merge_assoc] at hagain

section
variable {files : Files} {before mid after paths : List Bytes} {path : Bytes} {s : Settings}

/-- Two runs of files load one after the other if each of them loads by itself. -/
lemma loadLayered_append_eq_ok_iff : (loadLayered files (before ++ after)).result = .ok s ↔
    ∃ lower upper, (loadLayered files before).result = .ok lower ∧
      (loadLayered files after).result = .ok upper ∧ lower.merge upper = s := by
  rw [result_loadLayered_append]
  cases (loadLayered files before).result <;> cases (loadLayered files after).result <;>
    simp [Except.bind, Except.map]

/-- A file that comes again later has to load then, and gives the same again. -/
lemma loadLayered_cons_eq_ok_iff (again : path ∈ paths) :
    (loadLayered files (path :: paths)).result = .ok s ↔
      (loadLayered files paths).result = .ok s := by
  obtain ⟨mid, after, rfl⟩ := List.append_of_mem again
  have htwice : path :: (mid ++ path :: after) = [path] ++ (mid ++ ([path] ++ after)) := rfl
  have honce : mid ++ path :: after = mid ++ ([path] ++ after) := rfl
  rw [htwice, honce, result_loadLayered_append files [path]]
  simp only [result_loadLayered_append files mid, result_loadLayered_append files [path]]
  cases (loadLayered files [path]).result with
  | error e => cases (loadLayered files mid).result <;> simp [Except.bind, Except.map]
  | ok a =>
    cases (loadLayered files mid).result with
    | error e => simp [Except.bind, Except.map]
    | ok b =>
      cases (loadLayered files after).result with
      | error e => simp [Except.bind, Except.map]
      | ok c =>
        have hsame : a.merge (b.merge (a.merge c)) = b.merge (a.merge c) := by
          rw [← merge_assoc b, ← merge_assoc a, merge_merge_self]
        simp [Except.bind, Except.map, hsame]

/-- Wherever a file stands, it can be left out there if it comes again later. -/
theorem loadLayered_drop_eq_ok_iff (again : path ∈ after) :
    (loadLayered files (before ++ path :: after)).result = .ok s ↔
      (loadLayered files (before ++ after)).result = .ok s := by
  simp only [loadLayered_append_eq_ok_iff, loadLayered_cons_eq_ok_iff again]

/-- Only the last occurrence of each file counts. -/
theorem loadLayered_dedup_eq_ok_iff (paths : List Bytes) :
    (loadLayered files paths.dedup).result = .ok s ↔ (loadLayered files paths).result = .ok s := by
  induction paths generalizing s with
  | nil => rfl
  | cons path paths ih =>
    by_cases again : path ∈ paths
    · rw [List.dedup_cons_of_mem again, ih, loadLayered_cons_eq_ok_iff again]
    · rw [List.dedup_cons_of_notMem again, ← List.singleton_append,
        ← List.singleton_append (l := paths)]
      simp only [loadLayered_append_eq_ok_iff, ih]

end

/-- How layers add up, whether they are in order or not, and what follows for files that are named
more than once, as long as they stay as they are. -/
structure LastCounts : Prop where
  assoc : ∀ a b c : Settings, (a.merge b).merge c = a.merge (b.merge c)
  below : ∀ s : Settings, defaults.merge s = s
  above : ∀ s : Settings, s.merge defaults = s
  again : ∀ s a b : Settings, ((s.merge a).merge b).merge a = (s.merge b).merge a
  /-- Without an earlier occurrence of a path the files load to the same settings, or still fail. -/
  drop : ∀ files before path mid after s,
    (loadLayered files (before ++ path :: (mid ++ path :: after))).result = .ok s ↔
      (loadLayered files (before ++ (mid ++ path :: after))).result = .ok s
  /-- So all earlier occurrences of all paths can be left out at once. -/
  dedup : ∀ files paths s,
    (loadLayered files paths.dedup).result = .ok s ↔ (loadLayered files paths).result = .ok s

theorem last_occurrence_counts : LastCounts where
  assoc := merge_assoc
  below := defaults_merge
  above := merge_defaults
  again := merge_again
  drop files before path mid after s := loadLayered_drop_eq_ok_iff (by simp)
  dedup files paths s := loadLayered_dedup_eq_ok_iff paths

/-- The first file sets what the second leaves open; laid on top again, it takes the name back. -/
example :
    let a : Settings := ⟨"a", some 65536, .warn, -1⟩
    let b : Settings := ⟨"b", none, .ignore, 0⟩
    ((defaults.merge a).merge b).merge a = ⟨"a", some 65536, .ignore, 0⟩ ∧
      (defaults.merge a).merge b = ⟨"b", some 65536, .ignore, 0⟩ := by
  decide

end Strand.Settings
