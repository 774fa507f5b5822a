import Mathlib.Data.List.Nodup
import Strand.Proofs.Lists
import Strand.Toml.Document

/-! No key of a document is there twice. A line that would give a key a second value is refused; a
header may take a table out of its place, but puts it back before the next one. -/
namespace Strand.Toml

/-- Tables in which no key has two values. -/
def Entries.Distinct (es : Entries) : Prop := (es.map Prod.fst).Nodup

namespace Entries
variable {es es' : Entries} {key : String} {path : List String} {value : Value}

lemma lookup_eq_none_iff : es.lookup key = none ↔ key ∉ es.map Prod.fst := by
  rw [List.lookup_eq_none_iff, List.mem_map]
  constructor
  · rintro fresh ⟨entry, hentry, rfl⟩
    exact bne_iff_ne.mp (fresh entry hentry) rfl
  · exact fun absent entry hentry => bne_iff_ne.mpr fun heq => absent ⟨entry, hentry, heq.symm⟩

lemma distinct_nil : Distinct [] := List.nodup_nil

lemma distinct_cons_iff :
    Distinct ((key, value) :: es) ↔ es.lookup key = none ∧ es.Distinct := by
  rw [Distinct, List.map_cons, List.nodup_cons, lookup_eq_none_iff, Distinct]

/-- What is found at a key is what stands at it. -/
lemma Distinct.lookup_eq_some_iff (distinct : es.Distinct) :
    es.lookup key = some value ↔ (key, value) ∈ es := by
  refine ⟨mem_of_lookup, fun hmem => ?_⟩
  obtain ⟨before, after, rfl⟩ := List.append_of_mem hmem
  refine List.lookup_eq_some_iff.mpr ⟨before, after, rfl, fun entry hentry => ?_⟩
  rw [Distinct, List.map_append] at distinct
  have hapart := (List.nodup_append.mp distinct).2.2
  exact bne_iff_ne.mpr fun heq =>
    hapart entry.1 (List.mem_map_of_mem hentry) key List.mem_cons_self heq.symm

lemma Distinct.append (distinct : es.Distinct) (fresh : es.lookup key = none) (value : Value) :
    Distinct (es ++ [(key, value)]) := by
  rw [Distinct, List.map_append]
  exact List.nodup_append'.mpr
    ⟨distinct, List.nodup_singleton _, by simpa using lookup_eq_none_iff.mp fresh⟩

lemma map_fst_replace (es : Entries) (key : String) (value : Value) :
    (replace es key value).map Prod.fst = es.map Prod.fst := by
  rw [replace, List.map_map]
  refine List.map_congr_left fun entry _ => ?_
  by_cases hkey : entry.1 = key <;> simp [hkey]

lemma Distinct.replace (distinct : es.Distinct) (key : String) (value : Value) :
    Distinct (es.replace key value) := by
  rwa [Distinct, map_fst_replace]

lemma Distinct.erase (distinct : es.Distinct) (key : String) : Distinct (es.erase key) :=
  distinct.sublist (List.filter_sublist.map Prod.fst)

/-- A value below the first part of a path is put in place of what its table was, or is a new one.
-/
lemma Distinct.assign (distinct : es.Distinct) (h : es.assign path key value = some es') :
    es'.Distinct := by
  cases path with
  | nil =>
    simp only [Entries.assign] at h
    split at h
    · cases h
    · rename_i hfresh
      cases h
      exact distinct.append (Option.not_isSome_iff_eq_none.mp hfresh) _
  | cons p path =>
    rw [Entries.assign] at h
    split at h
    · rename_i hfresh
      obtain ⟨sub, -, heq⟩ := Option.bind_eq_some_iff.mp h
      cases heq
      exact distinct.append hfresh _
    · split at h
      · obtain ⟨sub, -, heq⟩ := Option.bind_eq_some_iff.mp h
        cases heq
        exact distinct.replace _ _
      · cases h
    · split at h
      · cases h
      · obtain ⟨sub, -, heq⟩ := Option.bind_eq_some_iff.mp h
        cases heq
        exact distinct.replace _ _
    · cases h

/-- Changes of a table that leave its keys distinct. -/
def Keeps {β : Type} (change : Entries → Option (Entries × β)) : Prop :=
  ∀ es es' result, change es = some (es', result) → es.Distinct → es'.Distinct

/-- However deep in a document a table is changed. -/
lemma Keeps.within {β : Type} {change : Entries → Option (Entries × β)} (keeps : Keeps change)
    (path : List String) : Keeps fun es => es.within change path := by
  intro es es' result h distinct
  cases path with
  | nil => exact keeps es es' result h distinct
  | cons p path =>
    simp only [Entries.within] at h
    split at h
    · rename_i hfresh
      obtain ⟨sub, -, heq⟩ := Option.bind_eq_some_iff.mp h
      cases heq
      exact distinct.append hfresh _
    · cases h
    · obtain ⟨sub, -, heq⟩ := Option.bind_eq_some_iff.mp h
      cases heq
      exact distinct.replace _ _
    · obtain ⟨sub, -, heq⟩ := Option.bind_eq_some_iff.mp h
      cases heq
      exact distinct.replace _ _
    · cases h

lemma keeps_beginTable (key : String) : Keeps (beginTable key) := by
  intro es es' result h distinct
  rw [beginTable] at h
  split at h <;> cases h
  · exact distinct
  · exact distinct.erase key

lemma keeps_beginElement (key : String) : Keeps (beginElement key) := by
  intro es es' result h distinct
  rw [beginElement] at h
  split at h <;> cases h
  · exact distinct.append ‹_› _
  · exact distinct

lemma keeps_endTable (key : String) (table : Entries) : Keeps (endTable key table) := by
  intro es es' result h distinct
  rw [endTable] at h
  split at h <;> cases h
  exact distinct.append ‹_› _

lemma keeps_endElement (key : String) (table : Entries) : Keeps (endElement key table) := by
  intro es es' result h distinct
  rw [endElement] at h
  split at h <;> cases h
  · exact distinct.append ‹_› _
  · exact distinct.replace _ _

end Entries

namespace Draft
variable {d d' : Draft} {es : Entries} {path : List String} {key : String} {value : Value}
open Entries

/-- The document's own table, as far as it has come. -/
def top (d : Draft) : Entries :=
  match d.place with
  | .document => d.current
  | .table _ _ | .element _ _ => d.root

lemma distinct_finish (distinct : d.top.Distinct) (h : d.finish = some es) : es.Distinct := by
  obtain ⟨root, current, place⟩ := d
  cases place with
  | document =>
    cases h
    exact distinct
  | table path key =>
    obtain ⟨⟨root', result⟩, hwithin, rfl⟩ := Option.map_eq_some_iff.mp h
    exact (keeps_endTable key current).within path _ _ _ hwithin distinct
  | element path key =>
    obtain ⟨⟨root', result⟩, hwithin, rfl⟩ := Option.map_eq_some_iff.mp h
    exact (keeps_endElement key current).within path _ _ _ hwithin distinct

lemma distinct_openTable (distinct : d.top.Distinct) (h : d.openTable path key = some d') :
    d'.top.Distinct := by
  obtain ⟨root, hfinish, h⟩ := Option.bind_eq_some_iff.mp h
  obtain ⟨⟨root', current⟩, hwithin, heq⟩ := Option.bind_eq_some_iff.mp h
  cases heq
  exact (keeps_beginTable key).within path _ _ _ hwithin (distinct_finish distinct hfinish)

lemma distinct_openElement (distinct : d.top.Distinct) (h : d.openElement path key = some d') :
    d'.top.Distinct := by
  obtain ⟨root, hfinish, h⟩ := Option.bind_eq_some_iff.mp h
  obtain ⟨⟨root', result⟩, hwithin, heq⟩ := Option.bind_eq_some_iff.mp h
  cases heq
  exact (keeps_beginElement key).within path _ _ _ hwithin (distinct_finish distinct hfinish)

lemma distinct_assign (distinct : d.top.Distinct) (h : d.assign path key value = some d') :
    d'.top.Distinct := by
  obtain ⟨current, hassign, rfl⟩ := Option.map_eq_some_iff.mp h
  obtain ⟨root, current, place⟩ := d
  cases place with
  | document => exact Distinct.assign distinct hassign
  | table | element => exact distinct

end Draft

variable {d d' : Draft} {cs rest : Chars} {es : Entries} {text : String} {n : Nat}

/-- A line is a header, an assignment, or leaves the draft alone. -/
lemma line?_cases (h : line? d cs = some (d', rest)) :
    d' = d ∨ (∃ path key, d.openTable path key = some d') ∨
      (∃ path key, d.openElement path key = some d') ∨
      ∃ path key value, d.assign path key value = some d' := by
  revert h
  unfold line?
  split
  all_goals intro h
  · obtain ⟨⟨⟨path, key⟩, _⟩, -, h⟩ := Option.bind_eq_some_iff.mp h
    obtain ⟨_, -, h⟩ := Option.bind_eq_some_iff.mp h
    obtain ⟨_, -, h⟩ := Option.bind_eq_some_iff.mp h
    obtain ⟨_, -, h⟩ := Option.bind_eq_some_iff.mp h
    obtain ⟨_, hopen, heq⟩ := Option.bind_eq_some_iff.mp h
    cases heq
    exact .inr (.inr (.inl ⟨path, key, hopen⟩))
  · obtain ⟨⟨⟨path, key⟩, _⟩, -, h⟩ := Option.bind_eq_some_iff.mp h
    obtain ⟨_, -, h⟩ := Option.bind_eq_some_iff.mp h
    obtain ⟨_, -, h⟩ := Option.bind_eq_some_iff.mp h
    obtain ⟨_, hopen, heq⟩ := Option.bind_eq_some_iff.mp h
    cases heq
    exact .inr (.inl ⟨path, key, hopen⟩)
  · obtain ⟨_, -, heq⟩ := Option.map_eq_some_iff.mp h
    exact .inl (Prod.mk.inj heq).1.symm
  · exact .inl (Prod.mk.inj (Option.some.inj h)).1.symm
  · obtain ⟨_, -, heq⟩ := Option.map_eq_some_iff.mp h
    exact .inl (Prod.mk.inj heq).1.symm
  · obtain ⟨⟨⟨path, key⟩, value, _⟩, -, h⟩ := Option.bind_eq_some_iff.mp h
    obtain ⟨_, -, h⟩ := Option.bind_eq_some_iff.mp h
    obtain ⟨_, hassign, heq⟩ := Option.bind_eq_some_iff.mp h
    cases heq
    exact .inr (.inr (.inr ⟨path, key, value, hassign⟩))

lemma distinct_line? (distinct : d.top.Distinct) (h : line? d cs = some (d', rest)) :
    d'.top.Distinct := by
  obtain rfl | ⟨path, key, h⟩ | ⟨path, key, h⟩ | ⟨path, key, value, h⟩ := line?_cases h
  · exact distinct
  · exact Draft.distinct_openTable distinct h
  · exact Draft.distinct_openElement distinct h
  · exact Draft.distinct_assign distinct h

lemma distinct_lines? (distinct : d.top.Distinct) (h : lines? n d cs = some d') :
    d'.top.Distinct := by
  induction n generalizing d cs with
  | zero => cases h
  | succ n ih =>
    rw [lines?] at h
    split at h
    · cases h
      exact distinct
    · split at h
      · cases h
      · exact ih (distinct_line? distinct ‹_›) h

/-- The keys of a document that can be read are distinct. -/
theorem distinct_read? (h : read? text = some es) : es.Distinct := by
  obtain ⟨d, hlines, hfinish⟩ := Option.bind_eq_some_iff.mp h
  exact Draft.distinct_finish (distinct_lines? (d := .empty) Entries.distinct_nil hlines) hfinish

end Strand.Toml
