import Mathlib.Data.List.Induction
import Strand.Settings.Source

/-! Settings in layers. Laying one set of settings over another keeps them in order, and it does not
matter in which order three layers are put together; so a run of files comes to the settings of all
files laid over each other, unless one of the files is at fault by itself. -/
namespace Strand.Settings

section
variable {s t lower upper : Settings}

lemma isValid_iff : s.IsValid ↔ s.namePrefix ≠ "" ∧ Char.ofNat 0 ∉ s.namePrefix.toList ∧
    (∀ size, s.stackSize = some size → minStackSize ≤ size) ∧ s.invalidJoinCode ≠ 0 := by
  rw [IsValid, fault?]
  by_cases hname : s.namePrefix = ""
  · simp [hname]
  by_cases hnul : Char.ofNat 0 ∈ s.namePrefix.toList
  · simp [hname, hnul]
  cases hstack : s.stackSize with
  | none => simp [hname, hnul]
  | some size =>
    by_cases hsmall : size < minStackSize
    · simp [hname, hnul, Option.filter, hsmall, UInt64.not_le.mpr hsmall]
    · simp [hname, hnul, Option.filter, hsmall, UInt64.not_lt.mp hsmall]

lemma isValid_defaults : defaults.IsValid := by decide

lemma validated_eq_ok_iff : s.validated = .ok t ↔ t = s ∧ s.IsValid := by
  rw [validated, IsValid]
  cases hfault : s.fault? with
  | none => simp [eq_comm]
  | some fault => simp

/-- Whatever field of whichever layer is taken over, the settings stay in order. -/
theorem IsValid.merge (hlower : lower.IsValid) (hupper : upper.IsValid) :
    (lower.merge upper).IsValid := by
  obtain ⟨lname, lnul, lstack, lcode⟩ := isValid_iff.mp hlower
  obtain ⟨uname, unul, ustack, ucode⟩ := isValid_iff.mp hupper
  refine isValid_iff.mpr ⟨?_, ?_, ?_, ?_⟩ <;> simp only [Settings.merge]
  · split <;> assumption
  · split <;> assumption
  · split <;> assumption
  · split <;> assumption

/-- Settings that give nothing leave everything below them as it is. -/
@[simp] lemma merge_defaults (s : Settings) : s.merge defaults = s := by simp [Settings.merge]

@[simp] lemma defaults_merge (s : Settings) : defaults.merge s = s := by
  obtain ⟨name, stack, join, code⟩ := s
  simp only [Settings.merge, Settings.mk.injEq]
  exact ⟨by split <;> simp_all, by split <;> simp_all, by split <;> simp_all,
    by split <;> simp_all⟩

/-- The upper of two layers decides, whether it is laid over the lower ones before or after. -/
theorem merge_assoc (a b c : Settings) : (a.merge b).merge c = a.merge (b.merge c) := by
  simp only [Settings.merge, Settings.mk.injEq]
  refine ⟨?_, ?_, ?_, ?_⟩ <;> split <;> rfl

end

/-- Layers put together, the first at the bottom. -/
def compose (layers : List Settings) : Settings := layers.foldl merge defaults

/-- The value of a field in the last of several layers that does not leave it at its default. -/
def lastGiven {β : Type} [DecidableEq β] (field : Settings → β) (layers : List Settings) : β :=
  ((layers.map field).reverse.find? fun x => x ≠ field defaults).getD (field defaults)

section
variable {layers more : List Settings}

@[simp] lemma compose_concat (layers : List Settings) (upper : Settings) :
    compose (layers ++ [upper]) = (compose layers).merge upper := by
  simp [compose]

theorem compose_append (layers more : List Settings) :
    compose (layers ++ more) = (compose layers).merge (compose more) := by
  induction more using List.reverseRecOn with
  | nil => simp [compose]
  | append_singleton more upper ih =>
    rw [← List.append_assoc, compose_concat, compose_concat, ih, merge_assoc]

lemma isValid_compose (h : ∀ s ∈ layers, s.IsValid) : (compose layers).IsValid := by
  induction layers using List.reverseRecOn with
  | nil => exact isValid_defaults
  | append_singleton layers upper ih =>
    rw [compose_concat]
    refine (ih fun s hs => h s ?_).merge (h upper ?_) <;> simp [*]

/-- A field that `merge` takes from the upper layer unless that leaves it at its default. -/
lemma compose_field {β : Type} [DecidableEq β] {field : Settings → β}
    (hmerge : ∀ lower upper, field (merge lower upper) =
      if field upper = field defaults then field lower else field upper)
    (layers : List Settings) : field (compose layers) = lastGiven field layers := by
  induction layers using List.reverseRecOn with
  | nil => rfl
  | append_singleton layers upper ih =>
    rw [compose_concat, hmerge, ih, lastGiven, lastGiven, List.map_append, List.map_singleton,
      List.reverse_concat, List.find?_cons]
    by_cases hupper : field upper = field defaults <;> simp [hupper]

end

section
variable {files : Files} {paths before after : List Bytes} {path : Bytes} {s : Settings}
  {layers : List Settings} {e : SettingsError}

/-- What each of several files gives by itself, up to the first that is at fault. -/
def loadAll (files : Files) (paths : List Bytes) : Except SettingsError (List Settings) :=
  paths.mapM fun path => (load files (some path)).result

lemma loadAll_cons (files : Files) (path : Bytes) (paths : List Bytes) :
    loadAll files (path :: paths) =
      (load files (some path)).result.bind fun upper =>
        (loadAll files paths).map fun layers => upper :: layers := by
  rw [loadAll, List.mapM_cons]
  rfl

lemma loadAll_append (files : Files) (before after : List Bytes) :
    loadAll files (before ++ after) =
      (loadAll files before).bind fun layers =>
        (loadAll files after).map fun more => layers ++ more := by
  rw [loadAll, List.mapM_append]
  rfl

/-- Nothing but the first file that is at fault decides about the error. -/
lemma loadAll_eq_error_iff : loadAll files paths = .error e ↔
    ∃ before path after, paths = before ++ path :: after ∧
      (∀ earlier ∈ before, ∃ s, (load files (some earlier)).result = .ok s) ∧
      (load files (some path)).result = .error e := by
  induction paths with
  | nil => simp [loadAll, pure, Except.pure]
  | cons first paths ih =>
    rw [loadAll_cons]
    cases hfirst : (load files (some first)).result with
    | error fault =>
      simp only [Except.bind, Except.error.injEq]
      constructor
      · rintro rfl
        exact ⟨[], first, paths, rfl, by simp, hfirst⟩
      · rintro ⟨before, path, after, hpaths, hbefore, hpath⟩
        cases before with
        | nil =>
          cases hpaths
          rw [hfirst] at hpath
          exact Except.error.inj hpath
        | cons earlier before =>
          cases hpaths
          obtain ⟨s, hs⟩ := hbefore first List.mem_cons_self
          rw [hfirst] at hs
          cases hs
    | ok upper =>
      have hrest : (loadAll files paths).map (fun layers => upper :: layers) = .error e ↔
          loadAll files paths = .error e := by
        cases loadAll files paths <;> simp [Except.map]
      simp only [Except.bind, hrest, ih]
      constructor
      · rintro ⟨before, path, after, rfl, hbefore, hpath⟩
        exact ⟨first :: before, path, after, rfl, by simpa [hfirst] using hbefore, hpath⟩
      · rintro ⟨before, path, after, hpaths, hbefore, hpath⟩
        cases before with
        | nil =>
          cases hpaths
          rw [hfirst] at hpath
          cases hpath
        | cons earlier before =>
          cases hpaths
          exact ⟨before, path, after, rfl,
            fun p hp => hbefore p (List.mem_cons_of_mem _ hp), hpath⟩

lemma loadAll_eq_ok_iff : loadAll files paths = .ok layers ↔
    paths.map (fun path => (load files (some path)).result) = layers.map .ok := by
  induction paths generalizing layers with
  | nil => simp [loadAll, pure, Except.pure, eq_comm]
  | cons first paths ih =>
    rw [loadAll_cons]
    cases layers with
    | nil =>
      cases (load files (some first)).result <;> cases loadAll files paths <;>
        simp [Except.bind, Except.map]
    | cons lower layers =>
      rw [List.map_cons, List.map_cons, List.cons.injEq, ← ih]
      cases (load files (some first)).result <;> cases loadAll files paths <;>
        simp [Except.bind, Except.map]

/-- What is read from a document has been checked. -/
lemma isValid_of_ofText {document : String} (h : ofText document = .ok s) : s.IsValid := by
  rw [ofText] at h
  split at h
  · cases h
  next decoded _ =>
    obtain ⟨rfl, hvalid⟩ := validated_eq_ok_iff.mp h
    exact hvalid

lemma isValid_of_load (h : (load files (some path)).result = .ok s) : s.IsValid := by
  simp only [load, loadFile] at h
  split at h
  · cases h
    exact isValid_defaults
  next entry _ =>
    simp only at h
    split at h
    · cases h
    · exact isValid_of_ofText h

lemma isValid_of_loadAll (h : loadAll files paths = .ok layers) : ∀ s ∈ layers, s.IsValid := by
  intro s hs
  have hmem : .ok s ∈ paths.map fun path => (load files (some path)).result := by
    rw [loadAll_eq_ok_iff.mp h]
    exact List.mem_map_of_mem hs
  obtain ⟨path, -, hpath⟩ := List.mem_map.mp hmem
  exact isValid_of_load hpath

lemma result_loadOver (files : Files) (s : Settings) (paths : List Bytes) :
    (loadOver files s paths).result =
      (loadAll files paths).bind fun layers => (layers.foldl merge s).validated := by
  induction paths generalizing s with
  | nil => rfl
  | cons path paths ih =>
    rw [loadAll_cons, loadOver, load]
    cases (loadFile files path).result with
    | error e => rfl
    | ok upper =>
      simp only [ih]
      cases loadAll files paths <;> rfl

/-- The check at the end always passes, so files that load one by one also load together. -/
theorem result_loadLayered (files : Files) (paths : List Bytes) :
    (loadLayered files paths).result = (loadAll files paths).map compose := by
  rw [loadLayered, result_loadOver]
  cases hall : loadAll files paths with
  | error e => rfl
  | ok layers => exact validated_eq_ok_iff.mpr ⟨rfl, isValid_compose (isValid_of_loadAll hall)⟩

/-- One run of files after another gives the settings of the second laid over those of the first. -/
theorem result_loadLayered_append (files : Files) (before after : List Bytes) :
    (loadLayered files (before ++ after)).result =
      (loadLayered files before).result.bind fun lower =>
        (loadLayered files after).result.map fun upper => lower.merge upper := by
  simp only [result_loadLayered, loadAll_append]
  cases loadAll files before with
  | error e => rfl
  | ok layers =>
    cases loadAll files after with
    | error e => rfl
    | ok more => simp [Except.bind, Except.map, compose_append]

/-- A file that is missing gives nothing. -/
lemma result_loadLayered_missing (h : files.find? path = none) :
    (loadLayered files [path]).result = .ok defaults := by
  have hload : (load files (some path)).result = .ok defaults := by simp only [load, loadFile, h]
  rw [result_loadLayered, loadAll_cons, hload]
  rfl

lemma isValid_of_loadLayered (h : (loadLayered files paths).result = .ok s) : s.IsValid := by
  rw [result_loadLayered] at h
  cases hall : loadAll files paths with
  | error e => simp [hall, Except.map] at h
  | ok layers =>
    rw [hall] at h
    cases h
    exact isValid_compose (isValid_of_loadAll hall)

/-- Whatever the environment names, the settings that come out of it are in order. -/
theorem isValid_of_ofSource {source : Source} (h : (ofSource source).result = .ok s) :
    s.IsValid := by
  rw [ofSource] at h
  split at h
  · cases h
    exact isValid_defaults
  · exact isValid_of_loadLayered h

lemma pathsOf_append (a b : Bytes) : pathsOf (a ++ colon :: b) = pathsOf a ++ pathsOf b :=
  List.splitOn_append_cons_self a b

end

/-- The settings that are in force: those of the environment, or the defaults if they are at fault.
-/
def configured (source : Source) : Settings := (ofSource source).result.toOption.getD defaults

theorem isValid_configured (source : Source) : (configured source).IsValid := by
  rw [configured]
  cases hresult : (ofSource source).result with
  | error e => exact isValid_defaults
  | ok s => exact isValid_of_ofSource hresult

/-- What settings in layers come to, as long as the files stay as they are. -/
structure Layered (files : Files) : Prop where
  /-- The first file that is at fault by itself decides, whatever comes after it. -/
  first_fault : ∀ paths e, (loadLayered files paths).result = .error e ↔
    ∃ before path after, paths = before ++ path :: after ∧
      (∀ earlier ∈ before, ∃ s, (load files (some earlier)).result = .ok s) ∧
      (load files (some path)).result = .error e
  /-- Otherwise each field is the one that the last file gives. -/
  last_given : ∀ paths s, (loadLayered files paths).result = .ok s →
    ∃ layers, paths.map (fun path => (load files (some path)).result) = layers.map .ok ∧
      s.namePrefix = lastGiven namePrefix layers ∧ s.stackSize = lastGiven stackSize layers ∧
      s.invalidJoin = lastGiven invalidJoin layers ∧
      s.invalidJoinCode = lastGiven invalidJoinCode layers
  append : ∀ before after, (loadLayered files (before ++ after)).result =
    (loadLayered files before).result.bind fun lower =>
      (loadLayered files after).result.map fun upper => lower.merge upper
  missing : ∀ before path after, files.find? path = none →
    (loadLayered files (before ++ path :: after)).result =
      (loadLayered files (before ++ after)).result
  environment : ∀ a b, (ofSource ⟨files, some (a ++ colon :: b)⟩).result =
    (ofSource ⟨files, some a⟩).result.bind fun lower =>
      (ofSource ⟨files, some b⟩).result.map fun upper => lower.merge upper

theorem loadLayered_layered (files : Files) : Layered files where
  first_fault paths e := by
    rw [result_loadLayered, ← loadAll_eq_error_iff]
    cases loadAll files paths <;> simp [Except.map]
  last_given paths s h := by
    rw [result_loadLayered] at h
    cases hall : loadAll files paths with
    | error e => simp [hall, Except.map] at h
    | ok layers =>
      rw [hall] at h
      cases h
      exact ⟨layers, loadAll_eq_ok_iff.mp hall, compose_field (fun _ _ => rfl) layers,
        compose_field (fun _ _ => rfl) layers, compose_field (fun _ _ => rfl) layers,
        compose_field (fun _ _ => rfl) layers⟩
  append := result_loadLayered_append files
  missing before path after h := by
    have hmiddle : (loadLayered files (path :: after)).result =
        (loadLayered files after).result := by
      rw [← List.singleton_append, result_loadLayered_append, result_loadLayered_missing h]
      cases (loadLayered files after).result <;> simp [Except.bind, Except.map]
    rw [result_loadLayered_append, result_loadLayered_append, hmiddle]
  environment a b := by
    simp only [ofSource, pathsOf_append]
    exact result_loadLayered_append files (pathsOf a) (pathsOf b)

end Strand.Settings
