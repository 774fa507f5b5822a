import Strand.Proofs.Settings.Layers
import Strand.Proofs.Toml.Lines

/-! Settings that are written down come back. A document tells settings if it assigns to each known
key, at most once and in any order, what the field of the key holds, and leaves out only fields that
have their defaults. Whatever the document looks like otherwise, it is read as these settings. -/
namespace Strand.Settings
open Toml

/-- What a document says at a key about the field of the key. An absent size cannot be said. -/
def Key.value? (s : Settings) : Key → Option Value
  | .namePrefix => some (.string s.namePrefix)
  | .stackSize => s.stackSize.map fun size => .integer (Int64.ofNat size.toNat)
  | .invalidJoin => some (.string s.invalidJoin.key)
  | .invalidJoinCode => some (.integer s.invalidJoinCode)

/-- Whether the field of a key is the same in two sets of settings. -/
def Key.Agree (s t : Settings) : Key → Prop
  | .namePrefix => s.namePrefix = t.namePrefix
  | .stackSize => s.stackSize = t.stackSize
  | .invalidJoin => s.invalidJoin = t.invalidJoin
  | .invalidJoinCode => s.invalidJoinCode = t.invalidJoinCode

/-- The entries of a document that describes some settings. -/
structure Tells (es : Entries) (s : Settings) : Prop where
  once : (es.map Prod.fst).Nodup
  given : ∀ name value, (name, value) ∈ es →
    ∃ key : Key, key.name = name ∧ key.value? s = some value
  left : ∀ key : Key, key.name ∉ es.map Prod.fst → key.Agree defaults s

/-- A size has to be an integer of a document. -/
def IsWritable (s : Settings) : Prop :=
  ∀ size, s.stackSize = some size → (size.toNat : Int) ≤ Int64.maxValue.toInt

variable {s t : Settings} {key other : Key} {value : Value} {es : Entries} {document : String}

lemma Key.name_inj (h : key.name = other.name) : key = other := by
  have hsome := Key.ofName?_name other
  rw [← h, Key.ofName?_name] at hsome
  exact Option.some.inj hsome

lemma readSize_written {size : UInt64} (writable : (size.toNat : Int) ≤ Int64.maxValue.toInt) :
    readSize (.integer (Int64.ofNat size.toNat)) = .ok size := by
  have hlt : size.toNat < 2 ^ 63 := by
    have hmax : Int64.maxValue.toInt = 2 ^ 63 - 1 := rfl
    omega
  have hint : (Int64.ofNat size.toNat).toInt = size.toNat := Int64.toInt_ofNat_of_lt hlt
  have hsign : ¬Int64.ofNat size.toNat < 0 := by
    rw [Int64.lt_iff_toInt_lt, hint]
    exact Int.not_lt.mpr (Int.natCast_nonneg _)
  simp [readSize, hsign, hint]

/-- The value of a field puts the field right, and leaves all others as they are. -/
lemma Key.put_value? (writable : s.IsWritable) (h : key.value? s = some value) (t : Settings) :
    ∃ t', key.put value t = .ok t' ∧ key.Agree t' s ∧ ∀ other ≠ key, other.Agree t' t := by
  cases key with
  | namePrefix =>
    cases h
    refine ⟨_, rfl, rfl, fun other hother => ?_⟩
    cases other <;> first | exact absurd rfl hother | rfl
  | stackSize =>
    obtain ⟨size, hsize, rfl⟩ := Option.map_eq_some_iff.mp h
    refine ⟨{ t with stackSize := some size }, ?_, hsize.symm, fun other hother => ?_⟩
    · rw [Key.put, readSize_written (writable size hsize)]
      rfl
    · cases other <;> first | exact absurd rfl hother | rfl
  | invalidJoin =>
    cases h
    refine ⟨{ t with invalidJoin := s.invalidJoin }, ?_, rfl, fun other hother => ?_⟩
    · simp only [Key.put, readPolicy, policyOfKey, JoinPolicy.ofKey?_key]
      rfl
    · cases other <;> first | exact absurd rfl hother | rfl
  | invalidJoinCode =>
    cases h
    refine ⟨_, rfl, rfl, fun other hother => ?_⟩
    cases other <;> first | exact absurd rfl hother | rfl

lemma Key.Agree.trans {u : Settings} (h : key.Agree s t) (h' : key.Agree t u) : key.Agree s u := by
  cases key <;> exact Eq.trans h h'

lemma eq_of_agree (h : ∀ key : Key, key.Agree t s) : t = s := by
  obtain ⟨name, stack, join, code⟩ := t
  obtain rfl : name = s.namePrefix := h .namePrefix
  obtain rfl : stack = s.stackSize := h .stackSize
  obtain rfl : join = s.invalidJoin := h .invalidJoin
  obtain rfl : code = s.invalidJoinCode := h .invalidJoinCode
  rfl

/-- One entry after the other puts its own field right. -/
lemma applyEntries_eq (writable : s.IsWritable)
    (given : ∀ name value, (name, value) ∈ es →
      ∃ key : Key, key.name = name ∧ key.value? s = some value)
    (left : ∀ key : Key, key.name ∉ es.map Prod.fst → key.Agree t s) :
    applyEntries t es = .ok s := by
  induction es generalizing t with
  | nil =>
    rw [applyEntries, eq_of_agree fun key => left key (by simp)]
  | cons entry es ih =>
    obtain ⟨name, value⟩ := entry
    obtain ⟨key, rfl, hvalue⟩ := given name value List.mem_cons_self
    obtain ⟨t', hput, hkey, hothers⟩ := Key.put_value? writable hvalue t
    simp only [applyEntries, Key.ofName?_name, hput]
    refine ih (fun name value hmem => given name value (List.mem_cons_of_mem _ hmem)) ?_
    intro other hother
    by_cases hsame : other = key
    · exact hsame ▸ hkey
    · refine (hothers other hsame).trans (left other ?_)
      rw [List.map_cons, List.mem_cons, not_or]
      exact ⟨fun hname => hsame (Key.name_inj hname), hother⟩

/-- Some entries tell the settings: those of all keys that have something to say. -/
lemma exists_tells (s : Settings) : ∃ es, Tells es s := by
  refine ⟨Key.all.filterMap fun key => (key.value? s).map fun value => (key.name, value),
    ?_, ?_, ?_⟩
  · obtain ⟨name, _ | size, join, code⟩ := s
    · have given : [Key.namePrefix.name, Key.invalidJoin.name, Key.invalidJoinCode.name].Nodup := by
        decide
      exact given
    · exact (by decide : (Key.all.map Key.name).Nodup)
  · intro name value hmem
    obtain ⟨key, -, hkey⟩ := List.mem_filterMap.mp hmem
    obtain ⟨value', hvalue, heq⟩ := Option.map_eq_some_iff.mp hkey
    cases heq
    exact ⟨key, rfl, hvalue⟩
  · intro key hkey
    cases hvalue : key.value? s with
    | none =>
      cases key with
      | stackSize => exact (Option.map_eq_none_iff.mp hvalue).symm
      | _ => cases hvalue
    | some value =>
      refine absurd (List.mem_map.mpr ⟨(key.name, value), List.mem_filterMap.mpr ?_, rfl⟩) hkey
      exact ⟨key, by cases key <;> decide, by rw [hvalue]; rfl⟩

lemma exists_valueWritten (h : key.value? s = some value) : ∃ w, ValueWritten value w := by
  have htext : ∀ text : String, ∃ w, ValueWritten (.string text) w := fun text => by
    obtain ⟨w, written⟩ := exists_textWritten text.toList
    exact ⟨_, .text written⟩
  have hinteger : ∀ n, ∃ w, ValueWritten (.integer n) w := fun n => by
    obtain ⟨w, written⟩ := exists_integerWritten n
    exact ⟨_, .integer written⟩
  cases key with
  | namePrefix | invalidJoin =>
    cases h
    exact htext _
  | stackSize =>
    obtain ⟨size, -, rfl⟩ := Option.map_eq_some_iff.mp h
    exact hinteger _
  | invalidJoinCode =>
    cases h
    exact hinteger _

theorem ofText_written (valid : s.IsValid) (writable : s.IsWritable) (tells : Tells es s)
    (written : Written es document.toList) : ofText document = .ok s := by
  have hread := read?_written written tells.once
  have happly := applyEntries_eq writable tells.given tells.left
  simp only [ofText, decode, hread, happly]
  exact validated_eq_ok_iff.mpr ⟨rfl, valid⟩

/-- How settings and the documents that describe them stand to each other. -/
structure ReadsBack (s : Settings) : Prop where
  /-- Whatever keys a document leaves out as it may, and however it is written. -/
  read : ∀ es document, Tells es s → Written es document.toList → ofText document = .ok s
  told : ∃ es, Tells es s
  written : ∀ es, Tells es s → ∃ document : String, Written es document.toList

/-- All settings that are in order come back from all documents that describe them. -/
theorem reads_back (valid : s.IsValid) (writable : s.IsWritable) : ReadsBack s where
  read _ _ tells written := ofText_written valid writable tells written
  told := exists_tells s
  written es tells := by
    obtain ⟨text, written⟩ := exists_written fun name value hmem => by
      obtain ⟨key, -, hvalue⟩ := tells.given name value hmem
      exact exists_valueWritten hvalue
    exact ⟨String.ofList text, by rwa [String.toList_ofList]⟩

/-- A prefix with a quote, a backslash and control characters, and a negative code. -/
theorem reads_back_awkward_prefix :
    (⟨"a\"\\\n\u0007", some 65536, .setError, -7⟩ : Settings).IsValid ∧
      ReadsBack ⟨"a\"\\\n\u0007", some 65536, .setError, -7⟩ := by
  have valid : (⟨"a\"\\\n\u0007", some 65536, .setError, -7⟩ : Settings).IsValid := by decide
  refine ⟨valid, reads_back valid fun size hsize => ?_⟩
  obtain rfl : 65536 = size := Option.some.inj hsize
  decide

/-- A document with a comment, an empty line, line ends of both kinds and a quoted key. -/
example :
    (ofText ("invalid_join_error_code = -7 # code\r\n\n" ++
      "'thread_name_prefix'=\"a\\u005C\\n\"")).toOption =
      some ⟨"a\\\n", none, .warn, -7⟩ := by
  decide +kernel

end Strand.Settings
