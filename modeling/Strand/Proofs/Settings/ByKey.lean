import Strand.Proofs.Settings.RoundTrip
import Strand.Proofs.Toml.Distinct

/-! What a document amounts to, read key by key. The values at the four known keys decide, each for
itself, whether they fit, and together which settings the document describes; which of the checks
these settings fail first decides the rest. The order of the entries, other keys and tables play no
part. -/
namespace Strand.Settings
open Toml

/-- What may stand under a policy's name: nothing, in one of three forms. -/
inductive IsBare : Value → Prop
  | array : IsBare (.array [])
  | table (origin : Origin) : IsBare (.table origin [])
  | tables : IsBare (.tables [])

/-- The two ways to give a policy. -/
inductive GivesPolicy (policy : JoinPolicy) : Value → Prop
  | text : GivesPolicy policy (.string policy.key)
  | table (origin : Origin) {v : Value} (bare : IsBare v) :
    GivesPolicy policy (.table origin [(policy.key, v)])

/-- What a value at a known key means for the settings. -/
def Key.Means (v : Value) (s : Settings) : Key → Prop
  | .namePrefix => v = .string s.namePrefix
  | .stackSize => ∃ size, s.stackSize = some size ∧ ∃ n, v = .integer n ∧ n.toInt = size.toNat
  | .invalidJoin => GivesPolicy s.invalidJoin v
  | .invalidJoinCode => v = .integer s.invalidJoinCode

/-- Values that a known key can have. -/
def Key.Fits (key : Key) (v : Value) : Prop := ∃ s, key.Means v s

/-- The settings that a document describes on top of others: what it leaves out stays. -/
structure Describes (es : Entries) (base s : Settings) : Prop where
  said : ∀ (key : Key) (v : Value), es.lookup key.name = some v → key.Means v s
  left : ∀ key : Key, es.lookup key.name = none → key.Agree s base

/-- All checks that settings fail, in the order in which they are made. -/
def faults (s : Settings) : List Fault :=
  (if s.namePrefix = "" then [.emptyName] else []) ++
    (if Char.ofNat 0 ∈ s.namePrefix.toList then [.nulInName] else []) ++
    ((s.stackSize.filter (· < minStackSize)).map Fault.smallStack).toList ++
    (if s.invalidJoinCode = 0 then [.zeroCode] else [])

/-- The outcomes of two documents, apart from the report on a value that does not fit. -/
inductive Alike : Except SettingsError Settings → Except SettingsError Settings → Prop
  | settled (s : Settings) : Alike (.ok s) (.ok s)
  | invalid (message : String) : Alike (.error (.invalid message)) (.error (.invalid message))
  | parseFailed (reason reason' : ReadError) :
    Alike (.error (.parseFailed reason)) (.error (.parseFailed reason'))

variable {s t base : Settings} {key other : Key} {v : Value} {es fs : Entries} {c : Complaint}
  {m : Misfit} {text : String}

lemma map_eq_ok {α β γ : Type} {f : α → β} {x : Except γ α} {b : β} (h : x.map f = .ok b) :
    ∃ a, x = .ok a ∧ f a = b := by
  cases x with
  | error e => cases h
  | ok a => exact ⟨a, rfl, Except.ok.inj h⟩

lemma policyOfKey_key (policy : JoinPolicy) : policyOfKey policy.key = .ok policy := by
  simp only [policyOfKey, JoinPolicy.ofKey?_key]

lemma policyOfKey_eq_ok {name : String} {policy : JoinPolicy} (h : policyOfKey name = .ok policy) :
    name = policy.key := by
  rw [policyOfKey, JoinPolicy.ofKey?] at h
  split at h
  · rename_i hfound
    cases h
    have hkey := List.find?_some hfound
    exact (beq_iff_eq.mp hkey).symm
  · cases h

lemma readNothing_eq_ok_iff : readNothing v = .ok () ↔ IsBare v := by
  constructor
  · intro h
    rw [readNothing.eq_def] at h
    split at h <;> cases h <;> constructor
  · intro h
    cases h <;> rfl

lemma readPolicy_eq_ok_iff {policy : JoinPolicy} :
    readPolicy v = .ok policy ↔ GivesPolicy policy v := by
  constructor
  · intro h
    rw [readPolicy.eq_def] at h
    split at h
    · rw [policyOfKey_eq_ok h]
      exact .text
    · cases h
    · split at h
      · cases h
      · rename_i hpolicy
        obtain ⟨_, hnothing, rfl⟩ := map_eq_ok h
        rw [policyOfKey_eq_ok hpolicy]
        exact .table _ (readNothing_eq_ok_iff.mp hnothing)
    · cases h
    · cases h
  · rintro (_ | ⟨_, bare⟩)
    · exact policyOfKey_key policy
    · simp only [readPolicy, policyOfKey_key, readNothing_eq_ok_iff.mpr bare]
      rfl

lemma readSize_eq_ok_iff {size : UInt64} :
    readSize v = .ok size ↔ ∃ n, v = .integer n ∧ n.toInt = size.toNat := by
  constructor
  · intro h
    rw [readSize.eq_def] at h
    split at h
    · rename_i n
      split at h
      · cases h
      · rename_i hsign
        cases h
        have hpos : 0 ≤ n.toInt := Int.not_lt.mp fun hneg => hsign (Int64.lt_iff_toInt_lt.mpr hneg)
        have hlt := n.toInt_lt
        refine ⟨n, rfl, ?_⟩
        rw [UInt64.toNat_ofNat_of_lt' (by change n.toInt.toNat < 2 ^ 64; omega)]
        omega
    · cases h
  · rintro ⟨n, rfl, hn⟩
    have hsign : ¬n < 0 := by
      rw [Int64.lt_iff_toInt_lt, hn]
      exact Int.not_lt.mpr (Int.natCast_nonneg _)
    simp only [readSize, if_neg hsign, hn, Int.toNat_natCast, UInt64.ofNat_toNat]

lemma readText_eq_ok_iff {x : String} : readText v = .ok x ↔ v = .string x := by
  constructor
  · intro h
    rw [readText.eq_def] at h
    split at h <;> cases h
    rfl
  · rintro rfl
    rfl

lemma readCode_eq_ok_iff {n : Int64} : readCode v = .ok n ↔ v = .integer n := by
  constructor
  · intro h
    rw [readCode.eq_def] at h
    split at h <;> cases h
    rfl
  · rintro rfl
    rfl

namespace Key

@[simp] lemma agree_refl (key : Key) (s : Settings) : key.Agree s s := by
  cases key <;> rfl

lemma Agree.symm (agree : key.Agree s t) : key.Agree t s := by
  cases key <;> exact Eq.symm agree

lemma Means.congr (means : key.Means v t) (agree : key.Agree s t) : key.Means v s := by
  cases key <;> simpa only [Means, show _ = _ from agree] using means

/-- A value that is put into a field is what the field holds then. -/
lemma means_of_put (h : key.put v t = .ok s) : key.Means v s := by
  cases key with
  | namePrefix =>
    obtain ⟨x, hx, rfl⟩ := map_eq_ok h
    exact readText_eq_ok_iff.mp hx
  | stackSize =>
    obtain ⟨size, hsize, rfl⟩ := map_eq_ok h
    exact ⟨size, rfl, readSize_eq_ok_iff.mp hsize⟩
  | invalidJoin =>
    obtain ⟨policy, hpolicy, rfl⟩ := map_eq_ok h
    exact readPolicy_eq_ok_iff.mp hpolicy
  | invalidJoinCode =>
    obtain ⟨code, hcode, rfl⟩ := map_eq_ok h
    exact readCode_eq_ok_iff.mp hcode

lemma agree_of_put (h : key.put v t = .ok s) (hother : other ≠ key) : other.Agree s t := by
  cases key <;> obtain ⟨x, -, rfl⟩ := map_eq_ok h <;> cases other <;>
    first | exact absurd rfl hother | rfl

/-- Whatever a value means, it can be put into the field, on top of any settings. -/
lemma exists_put (means : key.Means v s) (t : Settings) :
    ∃ t', key.put v t = .ok t' ∧ key.Agree t' s := by
  cases key with
  | namePrefix =>
    refine ⟨{ t with namePrefix := s.namePrefix }, ?_, rfl⟩
    rw [put, readText_eq_ok_iff.mpr means]
    rfl
  | stackSize =>
    obtain ⟨size, hsize, means⟩ := means
    refine ⟨{ t with stackSize := some size }, ?_, hsize.symm⟩
    rw [put, readSize_eq_ok_iff.mpr means]
    rfl
  | invalidJoin =>
    refine ⟨{ t with invalidJoin := s.invalidJoin }, ?_, rfl⟩
    rw [put, readPolicy_eq_ok_iff.mpr means]
    rfl
  | invalidJoinCode =>
    refine ⟨{ t with invalidJoinCode := s.invalidJoinCode }, ?_, rfl⟩
    rw [put, readCode_eq_ok_iff.mpr means]
    rfl

lemma not_fits_of_put (h : key.put v t = .error m) : ¬key.Fits v := by
  rintro ⟨s, means⟩
  obtain ⟨t', hput, -⟩ := exists_put means t
  rw [h] at hput
  cases hput

/-- A value means one thing only. -/
lemma Means.unique (means : key.Means v s) (means' : key.Means v t) : key.Agree s t := by
  obtain ⟨s', hput, hs⟩ := exists_put means defaults
  obtain ⟨t', hput', ht⟩ := exists_put means' defaults
  obtain rfl : s' = t' := Except.ok.inj (hput.symm.trans hput')
  exact hs.symm.trans ht

/-- The keys that are known are those with the name of a key. -/
lemma ofName?_eq_some {name : String} (h : ofName? name = some key) : key.name = name := by
  have hname := List.find?_some h
  exact beq_iff_eq.mp hname

lemma name_ne_of_ofName? {name : String} (h : ofName? name = none) (key : Key) :
    key.name ≠ name := by
  rintro rfl
  rw [ofName?_name] at h
  cases h

end Key

/-- The values at the known keys determine the settings. -/
lemma Describes.unique (describes : Describes es base s) (describes' : Describes es base t) :
    s = t := by
  refine eq_of_agree fun key => ?_
  cases hlookup : es.lookup key.name with
  | none => exact (describes.left key hlookup).trans (describes'.left key hlookup).symm
  | some v => exact (describes.said key v hlookup).unique (describes'.said key v hlookup)

lemma Describes.congr (describes : Describes es base s)
    (same : ∀ key : Key, fs.lookup key.name = es.lookup key.name) : Describes fs base s where
  said key v h := describes.said key v (same key ▸ h)
  left key h := describes.left key (same key ▸ h)

/-- An entry that is put in first stays as it is while the others are, since its key does not come
again. -/
lemma Describes.cons (rest : Describes es t s) (fresh : es.lookup key.name = none)
    (hput : key.put v base = .ok t) : Describes ((key.name, v) :: es) base s := by
  have hrest : ∀ other ≠ key, ((key.name, v) :: es).lookup other.name = es.lookup other.name :=
    fun other hother => lookup_cons_ne fun heq => hother (Key.name_inj heq)
  constructor
  · intro other w hlookup
    by_cases hsame : other = key
    · subst hsame
      rw [List.lookup_cons_self] at hlookup
      cases hlookup
      exact (Key.means_of_put hput).congr (rest.left other fresh)
    · exact rest.said other w (hrest other hsame ▸ hlookup)
  · intro other hlookup
    have hsame : other ≠ key := by
      rintro rfl
      rw [List.lookup_cons_self] at hlookup
      cases hlookup
    exact (rest.left other (hrest other hsame ▸ hlookup)).trans (Key.agree_of_put hput hsame)

/-- If all values fit, the settings are those that the entries describe on top of the first. -/
lemma describes_of_applyEntries (distinct : es.Distinct) (h : applyEntries base es = .ok s) :
    Describes es base s := by
  induction es generalizing base with
  | nil =>
    cases h
    exact ⟨fun _ _ hlookup => (nomatch hlookup), fun key _ => key.agree_refl _⟩
  | cons entry es ih =>
    obtain ⟨name, v⟩ := entry
    obtain ⟨hfresh, hrest⟩ := Entries.distinct_cons_iff.mp distinct
    rw [applyEntries] at h
    split at h
    · rename_i hname
      exact (ih hrest h).congr fun key => lookup_cons_ne (Key.name_ne_of_ofName? hname key)
    · rename_i key hname
      obtain rfl := Key.ofName?_eq_some hname
      split at h
      · cases h
      · rename_i hput
        exact (ih hrest h).cons hfresh hput

/-- A complaint is about a value that does not fit, wherever it stands. -/
lemma lookup_of_applyEntries (distinct : es.Distinct) (h : applyEntries base es = .error c) :
    ∃ v, es.lookup c.key.name = some v ∧ ¬c.key.Fits v := by
  induction es generalizing base with
  | nil => cases h
  | cons entry es ih =>
    obtain ⟨name, v⟩ := entry
    obtain ⟨hfresh, hrest⟩ := Entries.distinct_cons_iff.mp distinct
    rw [applyEntries] at h
    split at h
    · rename_i hname
      rw [lookup_cons_ne (Key.name_ne_of_ofName? hname c.key)]
      exact ih hrest h
    · rename_i key hname
      obtain rfl := Key.ofName?_eq_some hname
      split at h
      · rename_i hput
        cases h
        exact ⟨v, List.lookup_cons_self, Key.not_fits_of_put hput⟩
      · obtain ⟨w, hlookup, hfits⟩ := ih hrest h
        refine ⟨w, ?_, hfits⟩
        rw [lookup_cons_ne, hlookup]
        intro heq
        rw [heq, hfresh] at hlookup
        cases hlookup

/-- The first fault is the first of all faults. -/
lemma head?_faults (s : Settings) : s.faults.head? = s.fault? := by
  simp only [faults, fault?, List.contains_iff_mem]
  split
  · rfl
  · split
    · rfl
    · cases s.stackSize.filter (· < minStackSize) with
      | some size => rfl
      | none => split <;> rfl

lemma validated_eq (s : Settings) : s.validated =
    match s.faults with
    | [] => .ok s
    | fault :: _ => .error (.invalid fault.message) := by
  rw [validated, ← head?_faults]
  cases s.faults <;> rfl

lemma ofText_of_fits (h : read? text = some es)
    (fits : ∀ (key : Key) (v : Value), es.lookup key.name = some v → key.Fits v) :
    ∃ s, Describes es defaults s ∧ ofText text = s.validated := by
  have distinct := distinct_read? h
  cases happly : applyEntries defaults es with
  | ok s =>
    refine ⟨s, describes_of_applyEntries distinct happly, ?_⟩
    simp only [ofText, decode, h, happly]
  | error c =>
    obtain ⟨v, hlookup, hfits⟩ := lookup_of_applyEntries distinct happly
    exact absurd (fits c.key v hlookup) hfits

lemma ofText_of_misfit (h : read? text = some es) (hlookup : es.lookup key.name = some v)
    (hfits : ¬key.Fits v) : ∃ c w, ofText text = .error (.parseFailed (.misfit c text)) ∧
      es.lookup c.key.name = some w ∧ ¬c.key.Fits w := by
  have distinct := distinct_read? h
  cases happly : applyEntries defaults es with
  | ok s => exact absurd ⟨s, (describes_of_applyEntries distinct happly).said key v hlookup⟩ hfits
  | error c =>
    obtain ⟨w, hblamed⟩ := lookup_of_applyEntries distinct happly
    refine ⟨c, w, ?_, hblamed⟩
    simp only [ofText, decode, h, happly]

/-- A check ends in settings or in a message, never in a report. -/
lemma alike_validated (s : Settings) : Alike s.validated s.validated := by
  rw [validated]
  cases s.fault? with
  | none => exact .settled s
  | some fault => exact .invalid fault.message

/-- Documents that have the same values at the known keys have the same outcome. -/
theorem ofText_alike {text' : String} (h : read? text = some es) (h' : read? text' = some fs)
    (same : ∀ key : Key, fs.lookup key.name = es.lookup key.name) :
    Alike (ofText text) (ofText text') := by
  by_cases fits : ∀ (key : Key) (v : Value), es.lookup key.name = some v → key.Fits v
  · obtain ⟨s, describes, heq⟩ := ofText_of_fits h fits
    obtain ⟨s', describes', heq'⟩ := ofText_of_fits h' fun key v hlookup =>
      fits key v (same key ▸ hlookup)
    obtain rfl : s = s' := (describes.congr same).unique describes'
    rw [heq, heq']
    exact alike_validated s
  · push Not at fits
    obtain ⟨key, v, hlookup, hfits⟩ := fits
    obtain ⟨c, -, heq, -⟩ := ofText_of_misfit h hlookup hfits
    obtain ⟨c', -, heq', -⟩ := ofText_of_misfit h' ((same key).trans hlookup) hfits
    rw [heq, heq']
    exact .parseFailed _ _

/-- The entries at known keys. -/
def known (es : Entries) : Entries := es.filter fun entry => (Key.ofName? entry.1).isSome

lemma mem_known : (key.name, v) ∈ known es ↔ (key.name, v) ∈ es := by
  simp [known]

/-- The order of entries is nothing to a look for a key, as long as no key comes twice. -/
lemma lookup_of_perm (distinct : es.Distinct) (distinct' : fs.Distinct)
    (perm : (known es).Perm (known fs)) (key : Key) :
    fs.lookup key.name = es.lookup key.name := by
  refine Option.ext fun v => ?_
  rw [distinct.lookup_eq_some_iff, distinct'.lookup_eq_some_iff]
  exact mem_known.symm.trans (perm.mem_iff.symm.trans mem_known)

/-- How the values at the known keys of a document decide its outcome. -/
structure DecidedByKeys (text : String) (es : Entries) : Prop where
  once : es.Distinct
  /-- A value that does not fit counts before all checks, wherever it stands. The complaint is about
  such a value. -/
  misfit : ∀ (key : Key) (v : Value), es.lookup key.name = some v → ¬key.Fits v →
    ∃ c w, ofText text = .error (.parseFailed (.misfit c text)) ∧
      es.lookup c.key.name = some w ∧ ¬c.key.Fits w
  /-- Otherwise the document describes settings, and the first check that these fail counts. -/
  fits : (∀ (key : Key) (v : Value), es.lookup key.name = some v → key.Fits v) →
    ∃ s, Describes es defaults s ∧ ofText text =
      match s.faults with
      | [] => .ok s
      | fault :: _ => .error (.invalid fault.message)
  /-- Nothing but the values at the known keys counts. -/
  values : ∀ text' fs, read? text' = some fs →
    (∀ key : Key, fs.lookup key.name = es.lookup key.name) → Alike (ofText text) (ofText text')
  /-- In particular, neither other entries nor the order of the known ones. -/
  order : ∀ text' fs, read? text' = some fs → (known es).Perm (known fs) →
    Alike (ofText text) (ofText text')

/-- Of every document that can be read, whatever else is in it. -/
theorem decided_by_keys (h : read? text = some es) : DecidedByKeys text es where
  once := distinct_read? h
  misfit _ _ hlookup hfits := ofText_of_misfit h hlookup hfits
  fits hfits := by
    obtain ⟨s, describes, heq⟩ := ofText_of_fits h hfits
    exact ⟨s, describes, heq.trans (validated_eq s)⟩
  values _ _ h' same := ofText_alike h h' same
  order _ _ h' perm :=
    ofText_alike h h' (lookup_of_perm (distinct_read? h) (distinct_read? h') perm)

/-- A prefix that fails a check in front of a size that does not fit, and a table that says more. -/
theorem decided_by_keys_negative_size :
    read? "thread_name_prefix = ''\nstack_size = -1\n[log]\nstack_size = 1\n" =
      some [("thread_name_prefix", .string ""), ("stack_size", .integer (-1)),
        ("log", .table .header [("stack_size", .integer 1)])] ∧
    ¬Key.stackSize.Fits (.integer (-1)) ∧
    DecidedByKeys "thread_name_prefix = ''\nstack_size = -1\n[log]\nstack_size = 1\n"
      [("thread_name_prefix", .string ""), ("stack_size", .integer (-1)),
        ("log", .table .header [("stack_size", .integer 1)])] := by
  refine ⟨rfl, ?_, decided_by_keys rfl⟩
  rintro ⟨s, size, -, n, heq, hn⟩
  cases heq
  exact absurd hn (by change (-1 : Int) ≠ _; omega)

/-- The size stands first and is too small, but the prefix is checked first. -/
example : ofText "stack_size = 1\nthread_name_prefix = ''\n" =
    .error (.invalid "Thread name prefix cannot be empty") := by
  rfl

end Strand.Settings
