import Strand.Proofs.Host.Handover

/-! Every handle is joined at most once. Between the look at a handle and its removal from the table
any number of other steps may fall, but the table never gives a number out twice: so the removal
takes out the very worker that was looked at, or finds the number gone and turns the join away. -/
namespace Strand.Host
variable {p : Host} {trace : List Moment} {source : Settings.Source}

/-- How joins stand to the handles that were given out in a run so far. -/
structure JoinedOnce (trace : List Moment) (p : Host) : Prop where
  issued_nodup : ((issuedIn trace).map Prod.fst).Nodup
  consumed_nodup : (consumedIn trace).Nodup
  consumed_subset : consumedIn trace ⊆ (issuedIn trace).map Prod.fst
  size_eq : p.threads.size + (consumedIn trace).length = (issuedIn trace).length
  live_iff : ∀ raw k, p.threads.findRaw raw = .ok k ↔
    (raw, k) ∈ issuedIn trace ∧ raw ∉ consumedIn trace
  /-- A handle that was never given out, or was consumed before, is not joined. -/
  gone : ∀ who chance raw effect, p.step chance (.call who (.join raw)) = some effect →
    raw ≠ noHandle → (∀ k, (raw, k) ∈ issuedIn trace → raw ∈ consumedIn trace) →
    TurnedAway p who chance.pick effect
  /-- Nor does a worker join its own handle. -/
  own : ∀ chance raw k effect, p.step chance (.call (.worker k) (.join raw)) = some effect →
    (raw, k) ∈ issuedIn trace → TurnedAway p (.worker k) chance.pick effect
  found : ∀ who chance raw k effect, p.step chance (.call who (.join raw)) = some effect →
    (raw, k) ∈ issuedIn trace → raw ∉ consumedIn trace → who ≠ .worker k →
    effect = p.proceed who [] (.removing raw)
  /-- Of those that have found a handle, the first to go on consumes it. It waits for the worker,
  which is another thread; no other entry of the table changes. -/
  consumes : ∀ who chance raw, p.busy.lookup who = some (.removing raw) →
    raw ∉ consumedIn trace → ∃ k effect, p.step chance (.resume who) = some effect ∧
      (raw, k) ∈ issuedIn trace ∧ who ≠ .worker k ∧ effect.reply = none ∧
      effect.host.busy.lookup who = some (.joining k) ∧
      ∀ other j, effect.host.threads.findRaw other = .ok j ↔
        p.threads.findRaw other = .ok j ∧ other ≠ raw
  /-- All others are turned away, even if the slot holds a newer worker by then. -/
  overtaken : ∀ who chance raw, p.busy.lookup who = some (.removing raw) →
    raw ∈ consumedIn trace →
    ∃ effect, p.step chance (.resume who) = some effect ∧ TurnedAway p who chance.pick effect
  waits : ∀ who chance k, p.busy.lookup who = some (.joining k) →
    ((p.step chance (.resume who)).isSome = true ↔
      (p.crew.bind fun crew => crew.workers[k]?).any Worker.isFinished = true) ∧
    ∀ effect, p.step chance (.resume who) = some effect →
      effect.reply = some .nothing ∧ effect.host.threads = p.threads

section
variable {issued : List (UInt64 × Nat)} {consumed : List UInt64} {who : Party} {chance : Chance}
  {effect : Effect} {raw : UInt64} {k : Nat}

lemma step_call {c : Call UInt64} (taken : p.step chance (.call who c) = some effect) :
    effect = p.call who chance c := by
  simp only [step, Option.ite_none_right_eq_some, Option.some.injEq] at taken
  exact taken.2.symm

lemma step_resume {a : Activity} (ha : p.busy.lookup who = some a) (chance : Chance) :
    p.step chance (.resume who) = p.continue? who chance a := by
  rw [step, ha]
  rfl

namespace Claims

lemma join_gone (claims : Claims issued consumed p) (hraw : raw ≠ noHandle)
    (hgone : ∀ k, (raw, k) ∈ issued → raw ∈ consumed) (who : Party) (pick : Nat) :
    TurnedAway p who pick (p.join who pick raw) := by
  rw [Host.join, if_neg hraw]
  cases hfind : p.threads.findRaw raw with
  | error e => exact turnedAway_reject p who pick _
  | ok k =>
    obtain ⟨hissued, hlive⟩ := (claims.tracks.findRaw_iff raw k).mp hfind
    exact absurd (hgone k hissued) hlive

lemma ne_noHandle (claims : Claims issued consumed p) (hissued : (raw, k) ∈ issued) :
    raw ≠ noHandle := by
  obtain ⟨h, rfl⟩ := claims.tracks.handle raw (List.mem_map_of_mem hissued)
  exact h.toRaw_ne_zero

lemma join_own (claims : Claims issued consumed p) (hissued : (raw, k) ∈ issued) (pick : Nat) :
    TurnedAway p (.worker k) pick (p.join (.worker k) pick raw) := by
  by_cases hlive : raw ∈ consumed
  · exact claims.join_gone (claims.ne_noHandle hissued) (fun _ _ => hlive) _ pick
  · have hfind := (claims.tracks.findRaw_iff raw k).mpr ⟨hissued, hlive⟩
    rw [Host.join, if_neg (claims.ne_noHandle hissued), hfind]
    simp only [if_true]
    exact turnedAway_reject p _ pick _

lemma join_found (claims : Claims issued consumed p) (hissued : (raw, k) ∈ issued)
    (hlive : raw ∉ consumed) (hother : who ≠ .worker k) (pick : Nat) :
    p.join who pick raw = p.proceed who [] (.removing raw) := by
  have hfind := (claims.tracks.findRaw_iff raw k).mpr ⟨hissued, hlive⟩
  rw [Host.join, if_neg (claims.ne_noHandle hissued), hfind]
  simp only [if_neg hother]

lemma takeOut_consumes (claims : Claims issued consumed p)
    (ha : p.busy.lookup who = some (.removing raw)) (hlive : raw ∉ consumed) (pick : Nat) :
    ∃ k effect, p.takeOut who pick raw = some effect ∧ (raw, k) ∈ issued ∧ who ≠ .worker k ∧
      effect.reply = none ∧ effect.host.busy.lookup who = some (.joining k) ∧
      ∀ other j, effect.host.threads.findRaw other = .ok j ↔
        p.threads.findRaw other = .ok j ∧ other ≠ raw := by
  obtain ⟨h, k, threads, crew, crew', report, rfl, hissued, hother, hstep, -, -, -, htake⟩ :=
    claims.takeOut_live (mem_of_lookup ha) hlive pick
  refine ⟨k, _, htake, hissued, hother, rfl, List.lookup_cons_self, fun other j => ?_⟩
  have hafter := (claims.tracks.remove hstep).findRaw_iff other j
  have hbefore := claims.tracks.findRaw_iff other j
  rw [List.mem_append, List.mem_singleton, not_or, ← and_assoc, ← hbefore] at hafter
  exact hafter

/-- A join that has its worker waits exactly until that worker's body is over. -/
lemma collect_iff (claims : Claims issued consumed p) (hmem : (who, .joining k) ∈ p.busy) :
    (p.collect who k).isSome = true ↔
      (p.crew.bind fun crew => crew.workers[k]?).any Worker.isFinished = true := by
  obtain ⟨crew, hcrew, hstake⟩ := Option.bind_eq_some_iff.mp (claims.fits who _ hmem)
  obtain ⟨w, hw, hjoining⟩ := Option.map_eq_some_iff.mp hstake
  rw [Host.collect, hcrew, Option.bind_some, Option.bind_some, hw, Option.isSome_map,
    Crew.step_collect_iff hw (Prod.mk.inj hjoining).2]
  rfl

end Claims

end

/-- In every run, whatever all threads call and whichever of them takes the next step. -/
theorem Run.joined_once (run : Run source trace p) : JoinedOnce trace p := by
  have claims := run.claims
  have tracks := claims.tracks
  refine ⟨tracks.nodup, tracks.removed_nodup, tracks.removed_subset, tracks.size_eq,
    tracks.findRaw_iff, ?_, ?_, ?_, ?_, ?_, ?_⟩
  · intro who chance raw effect taken hraw hgone
    rw [step_call taken]
    exact claims.join_gone hraw hgone who chance.pick
  · intro chance raw k effect taken hissued
    rw [step_call taken]
    exact claims.join_own hissued chance.pick
  · intro who chance raw k effect taken hissued hlive hother
    rw [step_call taken]
    exact claims.join_found hissued hlive hother chance.pick
  · intro who chance raw ha hlive
    rw [step_resume ha]
    exact claims.takeOut_consumes ha hlive chance.pick
  · intro who chance raw ha hlate
    obtain ⟨text, hreject⟩ := claims.takeOut_late hlate who chance.pick
    rw [step_resume ha]
    exact ⟨_, hreject, turnedAway_reject p who chance.pick text⟩
  · intro who chance k ha
    rw [step_resume ha]
    refine ⟨claims.collect_iff (mem_of_lookup ha), fun effect hcollect => ?_⟩
    obtain ⟨⟨crew', report⟩, -, rfl⟩ := Option.map_eq_some_iff.mp hcollect
    exact ⟨rfl, rfl⟩

/-- Two threads look the same handle up, and the second takes it out; before the first goes on, its
slot holds a newer worker under a handle of its own. -/
theorem overtaken_join_spares_newcomer : ∃ trace p, Run ⟨⟨[], []⟩, none⟩ trace p ∧
    issuedIn trace = [(4294967296, 0), (8589934592, 1)] ∧ consumedIn trace = [4294967296] ∧
    p.busy.lookup (.outside 0) = some (.removing 4294967296) ∧
    p.busy.lookup (.outside 1) = some (.joining 0) ∧ JoinedOnce trace p := by
  let calm : Chance := ⟨0, none, 1024⟩
  have fresh : Run ⟨⟨[], []⟩, none⟩ [] _ := .start
  have asked := fresh.step calm (.call (.outside 0) (.spawn .joinable true)) rfl
  have counted := (asked.step calm (.resume (.outside 0)) rfl).step calm (.resume (.outside 0)) rfl
  have stored := (counted.step calm (.resume (.outside 0)) rfl).step calm (.resume (.outside 0)) rfl
  have seen := stored.step calm (.call (.outside 0) (.join 4294967296)) rfl
  have seenTwice := seen.step calm (.call (.outside 1) (.join 4294967296)) rfl
  have taken := seenTwice.step calm (.resume (.outside 1)) rfl
  have asked' := taken.step calm (.call (.outside 2) (.spawn .joinable true)) rfl
  have counted' :=
    (asked'.step calm (.resume (.outside 2)) rfl).step calm (.resume (.outside 2)) rfl
  have stored' :=
    (counted'.step calm (.resume (.outside 2)) rfl).step calm (.resume (.outside 2)) rfl
  exact ⟨_, _, stored', by decide, by decide, by decide, by decide, stored'.joined_once⟩

end Strand.Host
