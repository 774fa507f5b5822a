import Strand.Proofs.Host.Crewed

/-! The settings that are in force. Whatever the files hold and the environment names, all settings
that come out of them have passed every check, and so have those that a host goes by. Laying one
set of settings in order over another gives settings in order, so that of all checks the last one,
after several files, cannot fail. -/
namespace Strand

namespace Settings
variable {files : Files} {s t : Settings}

/-- Several files laid over settings one after the other, before the check at the end. -/
def gather (files : Files) (s : Settings) (paths : List Bytes) : Except SettingsError Settings :=
  paths.foldlM (fun s path => (load files (some path)).result.map fun upper => s.merge upper) s

lemma gather_cons (files : Files) (s : Settings) (path : Bytes) (paths : List Bytes) :
    gather files s (path :: paths) = (load files (some path)).result.bind fun upper =>
      gather files (s.merge upper) paths := by
  rw [gather, List.foldlM_cons]
  cases (load files (some path)).result <;> rfl

lemma result_loadOver_eq_gather (files : Files) (s : Settings) (paths : List Bytes) :
    (loadOver files s paths).result = (gather files s paths).bind validated := by
  induction paths generalizing s with
  | nil => rfl
  | cons path paths ih =>
    rw [gather_cons, loadOver, load]
    cases (loadFile files path).result with
    | error e => rfl
    | ok upper => exact ih (s.merge upper)

/-- Every file keeps in order what is gathered so far. -/
theorem isValid_of_gather {paths : List Bytes} (hs : s.IsValid)
    (h : gather files s paths = .ok t) : t.IsValid := by
  induction paths generalizing s with
  | nil =>
    cases h
    exact hs
  | cons path paths ih =>
    rw [gather_cons] at h
    cases hload : (load files (some path)).result with
    | error e => simp [hload, Except.bind] at h
    | ok upper =>
      rw [hload] at h
      exact ih (hs.merge (isValid_of_load hload)) h

end Settings

/-- Workers can be named under settings that are in order, whatever their numbers are. -/
lemma Crew.nul_not_mem_nameOf {c : Crew} (hvalid : c.settings.IsValid) (k : Nat) :
    Char.ofNat 0 ∉ (c.nameOf k).toList := by
  obtain ⟨-, hnul, -, -⟩ := Settings.isValid_iff.mp hvalid
  have hdigits : Char.ofNat 0 ∉ (toString (idOf k)).toList := by
    intro hmem
    rw [Nat.toString_eq_repr, Nat.toList_repr] at hmem
    have hdigit := Nat.isDigit_of_mem_toDigits (by decide) (by decide) hmem
    exact absurd hdigit (by decide)
  have hhyphen : Char.ofNat 0 ∉ "-".toList := by decide
  simp only [nameOf, String.toList_append, List.mem_append, not_or]
  exact ⟨⟨hnul, hhyphen⟩, hdigits⟩

namespace Host
open Settings

/-- All the ways to come by settings, none of which leads past the checks. -/
structure InOrder : Prop where
  document : ∀ text s, ofText text = .ok s → s.IsValid
  file : ∀ files path? s, (load files path?).result = .ok s → s.IsValid
  layers : ∀ files paths s, (loadLayered files paths).result = .ok s → s.IsValid
  environment : ∀ source s, (Settings.ofSource source).result = .ok s → s.IsValid
  /-- A crew that is made for a host, under the settings of the environment or the defaults. -/
  crew : ∀ source, (freshCrew source).1.settings.IsValid
  host : ∀ source trace p, Run source trace p → p.crewed.1.settings.IsValid
  merge : ∀ lower upper : Settings, lower.IsValid → upper.IsValid → (lower.merge upper).IsValid
  /-- After several files comes a check, which everything passes that gets there. -/
  last_check : ∀ files paths,
    (loadLayered files paths).result = (gather files defaults paths).bind validated ∧
      ∀ s, gather files defaults paths = .ok s → s.validated = .ok s
  /-- So the system is never given a name that ends early, nor a caller a code for no error. -/
  names : ∀ source trace p, Run source trace p → ∀ k, Char.ofNat 0 ∉ (p.crewed.1.nameOf k).toList
  code : ∀ source trace p, Run source trace p → p.crewed.1.settings.invalidJoinCode ≠ 0

/-- Whatever the files hold and the environment names, no settings come out that are not in order.
-/
theorem settings_in_order : InOrder := by
  have hhost : ∀ source trace p, Run source trace p → p.crewed.1.settings.IsValid := by
    intro source trace p run
    rw [run.settings_crewed]
    exact isValid_configured source
  refine ⟨fun text s => isValid_of_ofText, fun files path? s h => ?_,
    fun files paths s => isValid_of_loadLayered, fun source s => isValid_of_ofSource,
    fun source => ?_, hhost, fun lower upper => IsValid.merge, fun files paths => ?_,
    fun source trace p run k => Crew.nul_not_mem_nameOf (hhost source trace p run) k,
    fun source trace p run => (isValid_iff.mp (hhost source trace p run)).2.2.2⟩
  · cases path? with
    | none =>
      cases h
      exact isValid_defaults
    | some path => exact isValid_of_load h
  · rw [freshCrew_eq]
    exact isValid_configured source
  · exact ⟨result_loadOver_eq_gather files defaults paths,
      fun s h => validated_eq_ok_iff.mpr ⟨rfl, isValid_of_gather isValid_defaults h⟩⟩

end Host
end Strand
