import Strand.Proofs.Handle.Registry
import Strand.Proofs.Host.Run

/-! Where the handles of channels lead. A handle leads to the channel that was made with it, from
then until it is released, as the run tells. The table agrees with the run, however the slots of
the table are used again. -/
namespace Strand.Host
variable {p : Host} {trace : List Moment} {m : Moment} {raw : UInt64} {n wanted : Nat}

/-- How many values a new channel is asked to hold. A negative number asks for one. -/
def asked (capacity : Int64) : Nat := if capacity < 0 then 1 else capacity.toNatClampNeg

/-- The handle of a new channel that a step gives out, and what was asked of the channel. -/
def Moment.opened? (m : Moment) : Option (UInt64 × Nat) :=
  match m.action, m.effect.reply with
  | .call _ (.newChannel capacity), some (.handle raw) =>
    if raw = noHandle then none else some (raw, asked capacity)
  | _, _ => none

/-- The handles of channels given out in a run, in this order. -/
def openedIn (trace : List Moment) : List (UInt64 × Nat) := trace.filterMap Moment.opened?

def Moment.Releases (m : Moment) (raw : UInt64) : Prop := ∃ who, m.action = .call who (.release raw)

/-- Whether a number was given out for the channel `n`, counted in the order in which channels were
made, and has not been released since. -/
def Leads (trace : List Moment) (raw : UInt64) (n : Nat) : Prop :=
  ∃ before m after, trace = before ++ m :: after ∧ m.opened?.map Prod.fst = some raw ∧
    (openedIn before).length = n ∧ ∀ later ∈ after, ¬later.Releases raw

lemma openedIn_concat (unopened : m.opened? = none) : openedIn (trace ++ [m]) = openedIn trace := by
  rw [openedIn, filterMap_concat, unopened]
  exact List.append_nil _

lemma leads_concat_iff : Leads (trace ++ [m]) raw n ↔
    (Leads trace raw n ∧ ¬m.Releases raw) ∨
      (m.opened?.map Prod.fst = some raw ∧ (openedIn trace).length = n) := by
  constructor
  · rintro ⟨before, first, after, htrace, hopened, hlength, hkept⟩
    rcases concat_eq_append_cons htrace with ⟨rfl, rfl, rfl⟩ | ⟨rest, rfl, rfl⟩
    · exact .inr ⟨hopened, hlength⟩
    · refine .inl ⟨⟨before, first, rest, rfl, hopened, hlength, fun later hlater => ?_⟩, ?_⟩
      · exact hkept later (List.mem_append_left _ hlater)
      · exact hkept m (List.mem_append_right _ (List.mem_singleton_self m))
  · rintro (⟨⟨before, first, after, rfl, hopened, hlength, hkept⟩, hm⟩ | ⟨hopened, hlength⟩)
    · refine ⟨before, first, after ++ [m], by simp, hopened, hlength, fun later hlater => ?_⟩
      rcases List.mem_append.mp hlater with hlater | hlater
      · exact hkept later hlater
      · rw [List.mem_singleton.mp hlater]
        exact hm
    · exact ⟨trace, m, [], rfl, hopened, hlength, fun _ h => by cases h⟩

lemma names_of_leads (leads : Leads trace raw n) :
    ∃ wanted, (openedIn trace)[n]? = some (raw, wanted) := by
  obtain ⟨before, m, after, rfl, hm, rfl, -⟩ := leads
  obtain ⟨⟨raw', wanted⟩, hgives, rfl⟩ := Option.map_eq_some_iff.mp hm
  rw [openedIn, List.filterMap_append, List.filterMap_cons_some hgives, ← openedIn,
    List.getElem?_append_right (Nat.le_refl _), Nat.sub_self]
  exact ⟨wanted, rfl⟩

/-- How the table of channels stands to the handles given out. -/
structure Opened (trace : List Moment) (p : Host) : Prop where
  tracks : ∃ released, p.channels.Tracks
    ((openedIn trace).zipIdx.map fun entry => (entry.1.1, entry.2)) released
  leads : ∀ raw n, p.channels.findRaw raw = .ok n ↔ Leads trace raw n
  length : p.made.length = (openedIn trace).length

namespace Opened
variable {p' : Host} {h : Handle} {channels : Table Nat}

/-- A step that opens nothing and releases nothing leaves the table as it is. -/
lemma same (opened : Opened trace p) (channels : p'.channels = p.channels)
    (length : p'.made.length = p.made.length) (unopened : m.opened? = none)
    (kept : ∀ raw n, Leads trace raw n → ¬m.Releases raw) : Opened (trace ++ [m]) p' := by
  refine ⟨?_, fun raw n => ?_, ?_⟩
  · rw [openedIn_concat unopened, channels]
    exact opened.tracks
  · rw [channels, opened.leads, leads_concat_iff, unopened]
    simp only [Option.map_none, reduceCtorEq, false_and, or_false]
    exact ⟨fun h => ⟨h, kept raw n h⟩, And.left⟩
  · rw [length, openedIn_concat unopened]
    exact opened.length

lemma opens (opened : Opened trace p) (step : Table.Inserted p.channels p.made.length h channels)
    (after : p'.channels = channels) (length : p'.made.length = p.made.length + 1)
    (gives : m.opened? = some (h.toRaw, wanted)) (kept : ∀ raw, ¬m.Releases raw) :
    Opened (trace ++ [m]) p' := by
  have hopened : openedIn (trace ++ [m]) = openedIn trace ++ [(h.toRaw, wanted)] := by
    rw [openedIn, filterMap_concat, gives]
    rfl
  refine ⟨?_, fun raw n => ?_, ?_⟩
  · obtain ⟨released, tracks⟩ := opened.tracks
    refine ⟨released, ?_⟩
    rw [hopened, after, List.zipIdx_append, List.map_append, Nat.zero_add, ← opened.length]
    exact tracks.insert step
  · rw [after, step.findRaw_iff, opened.leads, leads_concat_iff, gives, ← opened.length]
    simp only [kept, not_false_eq_true, and_true, Option.map_some, Option.some.injEq]
    rw [@eq_comm _ raw, @eq_comm _ n]
  · rw [length, hopened, opened.length, List.length_append]
    rfl

lemma releases (opened : Opened trace p) {v : Nat} (step : Table.Removed p.channels h v channels)
    (after : p'.channels = channels) (length : p'.made.length = p.made.length)
    (unopened : m.opened? = none) (gone : ∀ raw, m.Releases raw ↔ raw = h.toRaw) :
    Opened (trace ++ [m]) p' := by
  refine ⟨?_, fun raw n => ?_, ?_⟩
  · obtain ⟨released, tracks⟩ := opened.tracks
    rw [openedIn_concat unopened, after]
    exact ⟨_, tracks.remove step⟩
  · rw [after, step.findRaw_iff, opened.leads, leads_concat_iff, unopened, gone]
    simp
  · rw [length, openedIn_concat unopened]
    exact opened.length

lemma map_zipIdx (opened : List (UInt64 × Nat)) :
    (opened.zipIdx.map fun entry => (entry.1.1, entry.2)).map Prod.fst = opened.map Prod.fst := by
  conv => rhs; rw [← List.zipIdx_map_fst 0 opened]
  rw [List.map_map, List.map_map]
  rfl

lemma nodup (opened : Opened trace p) : ((openedIn trace).map Prod.fst).Nodup := by
  obtain ⟨released, tracks⟩ := opened.tracks
  exact map_zipIdx _ ▸ tracks.nodup

/-- The high half of a handle is not zero. -/
lemma le_toNat (opened : Opened trace p) (given : raw ∈ (openedIn trace).map Prod.fst) :
    4294967296 ≤ raw.toNat := by
  obtain ⟨released, tracks⟩ := opened.tracks
  rw [← map_zipIdx] at given
  obtain ⟨h, rfl⟩ := tracks.handle raw given
  exact h.le_toNat_toRaw

end Opened

/-- The token of a detached thread is the low half of the thread's number, and one if that is
zero. -/
lemma toNat_detachedToken_eq (id : UInt64) :
    (detachedToken id).toNat = max (id.toNat % 4294967296) 1 := by
  have hlow : (id &&& 0xffffffff).toNat = id.toNat % 4294967296 := by
    rw [UInt64.toNat_and]
    exact Nat.and_two_pow_sub_one_eq_mod id.toNat 32
  have htoken : detachedToken id = if id &&& 0xffffffff ≤ 1 then 1 else id &&& 0xffffffff := rfl
  rw [htoken]
  split
  next hle =>
    rw [UInt64.le_iff_toNat_le, hlow, UInt64.toNat_one] at hle
    rw [UInt64.toNat_one]
    omega
  next hgt =>
    rw [UInt64.le_iff_toNat_le, hlow, UInt64.toNat_one] at hgt
    rw [hlow]
    omega

/-- The high half of the token of a detached thread is zero. -/
lemma toNat_detachedToken (id : UInt64) : (detachedToken id).toNat < 4294967296 := by
  rw [toNat_detachedToken_eq]
  omega

end Strand.Host
