import Strand.Proofs.Handle.Registry
import Strand.Proofs.Host.Run

/-! Who holds the handle of a worker. As long as a worker is being launched, it belongs to the call
that launches it; then its handle is stored in the table, until one join takes it out and the worker
belongs to that join. `Claims` says so of a host together with the handles it has given out and
those that were taken out; its lemmas are one for each kind of change that a step can make. -/
namespace Strand

namespace Activity
variable {stake stake' : Nat → Option (SpawnMode × Claim)} {issued issued' : List (UInt64 × Nat)}
  {who : Party} {a : Activity}

/-- The worker that a call in progress has for itself. -/
def worker? : Activity → Option Nat
  | .launching _ k | .enrolling k | .joining k => some k
  | _ => none

/-- What a call in progress may rely on, whatever the others do. -/
def Fits (stake : Nat → Option (SpawnMode × Claim)) (issued : List (UInt64 × Nat)) (who : Party) :
    Activity → Prop
  | .launching mode k => stake k = some (mode, .none) ∧ k ∉ issued.map Prod.snd
  | .enrolling k => stake k = some (.joinable, .held) ∧ k ∉ issued.map Prod.snd
  | .removing raw => ∃ k, (raw, k) ∈ issued ∧ who ≠ .worker k
  | .joining k => stake k = some (.joinable, .joining)
  | _ => True

lemma fits_of_plain (hplain : a.isPlain = true) : a.Fits stake issued who := by
  cases a with
  | launching | enrolling | removing | joining => cases hplain
  | _ => trivial

lemma worker?_of_plain (hplain : a.isPlain = true) : a.worker? = none := by
  cases a with
  | launching | enrolling | joining => cases hplain
  | _ => rfl

lemma Fits.mono (h : a.Fits stake issued who) (hissued : issued ⊆ issued')
    (hworker : ∀ k, a.worker? = some k →
      stake' k = stake k ∧ (k ∈ issued'.map Prod.snd → k ∈ issued.map Prod.snd)) :
    a.Fits stake' issued' who := by
  cases a with
  | launching mode k =>
    obtain ⟨hstake, hnew⟩ := hworker k rfl
    exact ⟨hstake.trans h.1, fun hmem => h.2 (hnew hmem)⟩
  | enrolling k =>
    obtain ⟨hstake, hnew⟩ := hworker k rfl
    exact ⟨hstake.trans h.1, fun hmem => h.2 (hnew hmem)⟩
  | removing raw =>
    obtain ⟨k, hmem, hother⟩ := h
    exact ⟨k, hissued hmem, hother⟩
  | joining k => exact (hworker k rfl).1.trans h
  | _ => trivial

end Activity

namespace Host
variable {issued issued' : List (UInt64 × Nat)} {consumed consumed' : List UInt64} {p p' : Host}
  {who : Party} {a : Activity} {more : Option Activity} {k : Nat}

/-- Every worker is in one hand. -/
structure Claims (issued : List (UInt64 × Nat)) (consumed : List UInt64) (p : Host) : Prop where
  tracks : p.threads.Tracks issued consumed
  workers_nodup : (issued.map Prod.snd).Nodup
  known : ∀ k ∈ issued.map Prod.snd, p.stake? k ≠ none
  held : ∀ raw k, (raw, k) ∈ issued → raw ∉ consumed → p.stake? k = some (.joinable, .held)
  keys : (p.busy.map Prod.fst).Nodup
  fits : ∀ who a, (who, a) ∈ p.busy → a.Fits p.stake? issued who
  apart : ∀ who a who' a' k, (who, a) ∈ p.busy → (who', a') ∈ p.busy →
    a.worker? = some k → a'.worker? = some k → who = who'

namespace Claims

lemma consumed_of_owner (claims : Claims issued consumed p) (hmem : (who, a) ∈ p.busy)
    (hworker : a.worker? = some k) {raw : UInt64} (hraw : (raw, k) ∈ issued) : raw ∈ consumed := by
  by_contra hlive
  have hheld := claims.held raw k hraw hlive
  have hfits := claims.fits who a hmem
  cases a with
  | launching mode j =>
    cases hworker
    exact hfits.2 (List.mem_map_of_mem hraw)
  | enrolling j =>
    cases hworker
    exact hfits.2 (List.mem_map_of_mem hraw)
  | joining j =>
    cases hworker
    rw [Activity.Fits, hheld] at hfits
    cases hfits
  | _ => cases hworker

/-- A step of `who` that leaves alone what the other calls in progress rely on. -/
theorem update (claims : Claims issued consumed p) (busy : p'.busy = p.busyAfter who more)
    (tracks : p'.threads.Tracks issued' consumed') (workers_nodup : (issued'.map Prod.snd).Nodup)
    (known : ∀ k ∈ issued'.map Prod.snd, p'.stake? k ≠ none)
    (held : ∀ raw k, (raw, k) ∈ issued' → raw ∉ consumed' → p'.stake? k = some (.joinable, .held))
    (hissued : issued ⊆ issued') (fits : ∀ a, more = some a → a.Fits p'.stake? issued' who)
    (others : ∀ who' a k, who' ≠ who → (who', a) ∈ p.busy → a.worker? = some k →
      p'.stake? k = p.stake? k ∧ (k ∈ issued'.map Prod.snd → k ∈ issued.map Prod.snd))
    (apart : ∀ who' a b k, who' ≠ who → (who', a) ∈ p.busy → a.worker? = some k → more = some b →
      b.worker? ≠ some k) :
    Claims issued' consumed' p' where
  tracks := tracks
  workers_nodup := workers_nodup
  known := known
  held := held
  keys := by
    rw [busy]
    exact nodup_busyAfter claims.keys
  fits who' a hmem := by
    rw [busy] at hmem
    rcases mem_busyAfter.mp hmem with ⟨rfl, hmore⟩ | ⟨hne, hold⟩
    · exact fits a hmore
    · exact (claims.fits who' a hold).mono hissued fun k => others who' a k hne hold
  apart who₁ a₁ who₂ a₂ k hmem₁ hmem₂ hworker₁ hworker₂ := by
    rw [busy] at hmem₁ hmem₂
    rcases mem_busyAfter.mp hmem₁ with ⟨rfl, hmore₁⟩ | ⟨hne₁, hold₁⟩ <;>
      rcases mem_busyAfter.mp hmem₂ with ⟨rfl, hmore₂⟩ | ⟨hne₂, hold₂⟩
    · rfl
    · exact absurd hworker₁ (apart who₂ a₂ a₁ k hne₂ hold₂ hworker₂ hmore₁)
    · exact absurd hworker₂ (apart who₁ a₁ a₂ k hne₁ hold₁ hworker₁ hmore₂)
    · exact claims.apart who₁ a₁ who₂ a₂ k hold₁ hold₂ hworker₁ hworker₂

/-- What two calls have for themselves is not the same worker. -/
lemma ne_of_owner (claims : Claims issued consumed p) (hmem : (who, a) ∈ p.busy)
    (hworker : a.worker? = some k) {who' : Party} {a' : Activity} {j : Nat} (hne : who' ≠ who)
    (hmem' : (who', a') ∈ p.busy) (hworker' : a'.worker? = some j) : j ≠ k := by
  rintro rfl
  exact hne (claims.apart who' a' who a j hmem' hmem hworker' hworker)

lemma rests (claims : Claims issued consumed p) (threads : p'.threads = p.threads)
    (stakes : p'.stake? = p.stake?) (busy : p'.busy = p.busy) : Claims issued consumed p' where
  tracks := by
    rw [threads]
    exact claims.tracks
  workers_nodup := claims.workers_nodup
  known := by
    rw [stakes]
    exact claims.known
  held := by
    rw [stakes]
    exact claims.held
  keys := by
    rw [busy]
    exact claims.keys
  fits := by
    rw [busy, stakes]
    exact claims.fits
  apart := by
    rw [busy]
    exact claims.apart

lemma goesOn (claims : Claims issued consumed p) (who : Party) (more : Option Activity)
    (threads : p'.threads = p.threads)
    (stakes : p'.stake? = p.stake?) (busy : p'.busy = p.busyAfter who more)
    (fits : ∀ a, more = some a → a.Fits p.stake? issued who)
    (own : ∀ a, more = some a → a.worker? ≠ none → (who, a) ∈ p.busy) :
    Claims issued consumed p' := by
  apply claims.update busy
  · rw [threads]
    exact claims.tracks
  · exact claims.workers_nodup
  · rw [stakes]
    exact claims.known
  · rw [stakes]
    exact claims.held
  · exact List.Subset.refl _
  · rw [stakes]
    exact fits
  · exact fun _ _ k _ _ _ => ⟨congrFun stakes k, id⟩
  · intro who' a b k hne hmem hworker hmore hk
    exact claims.ne_of_owner (own b hmore (by simp [hk])) hk hne hmem hworker rfl

lemma quiet (claims : Claims issued consumed p) (who : Party) (h : Quiet p who p') :
    Claims issued consumed p' := by
  rcases h.busy with hsame | ⟨more, hbusy, hplain⟩
  · exact claims.rests h.threads h.stakes hsame
  · exact claims.goesOn who more h.threads h.stakes hbusy
      (fun a ha => Activity.fits_of_plain (hplain a ha))
      fun a ha hworker => absurd (Activity.worker?_of_plain (hplain a ha)) hworker

lemma asks (claims : Claims issued consumed p) {mode : SpawnMode} (fresh : p.stake? k = none)
    (stake : p'.stake? k = some (mode, .none)) (others : ∀ j ≠ k, p'.stake? j = p.stake? j)
    (threads : p'.threads = p.threads)
    (busy : p'.busy = p.busyAfter who (some (.launching mode k))) : Claims issued consumed p' := by
  -- What somebody has for himself exists, so it is not the new worker.
  have hexists : ∀ who' a j, (who', a) ∈ p.busy → a.worker? = some j → j ≠ k := by
    rintro who' a j hmem hworker rfl
    have hfits := claims.fits who' a hmem
    cases a with
    | launching | enrolling =>
      cases hworker
      rw [Activity.Fits, fresh] at hfits
      cases hfits.1
    | joining =>
      cases hworker
      rw [Activity.Fits, fresh] at hfits
      cases hfits
    | _ => cases hworker
  have hissued : ∀ j ∈ issued.map Prod.snd, j ≠ k := by
    rintro j hj rfl
    exact claims.known j hj fresh
  apply claims.update busy
  · rw [threads]
    exact claims.tracks
  · exact claims.workers_nodup
  · intro j hj
    rw [others j (hissued j hj)]
    exact claims.known j hj
  · intro raw j hraw hlive
    rw [others j (hissued j (List.mem_map_of_mem hraw))]
    exact claims.held raw j hraw hlive
  · exact List.Subset.refl _
  · intro b hb
    cases hb
    exact ⟨stake, fun hk => hissued k hk rfl⟩
  · exact fun who' a j _ hmem hworker => ⟨others j (hexists who' a j hmem hworker), id⟩
  · intro who' a b j _ hmem hworker hb hk
    cases hb
    exact hexists who' a j hmem hworker (Option.some.inj hk).symm

/-- A call that has a worker for itself moves on, and may change what is at stake in that worker. -/
lemma owns (claims : Claims issued consumed p) (more : Option Activity)
    (hmem : (who, a) ∈ p.busy)
    (hworker : a.worker? = some k) (kept : p'.stake? k ≠ none)
    (others : ∀ j ≠ k, p'.stake? j = p.stake? j)
    (threads : p'.threads = p.threads) (busy : p'.busy = p.busyAfter who more)
    (fits : ∀ b, more = some b → b.Fits p'.stake? issued who)
    (own : ∀ b, more = some b → b.worker? = some k) : Claims issued consumed p' := by
  apply claims.update busy
  · rw [threads]
    exact claims.tracks
  · exact claims.workers_nodup
  · intro j hj
    by_cases hjk : j = k
    · rw [hjk]
      exact kept
    · rw [others j hjk]
      exact claims.known j hj
  · intro raw j hraw hlive
    rw [others j (by rintro rfl; exact hlive (claims.consumed_of_owner hmem hworker hraw))]
    exact claims.held raw j hraw hlive
  · exact List.Subset.refl _
  · exact fits
  · exact fun who' a j hne hmem' hworker' =>
      ⟨others j (claims.ne_of_owner hmem hworker hne hmem' hworker'), id⟩
  · intro who' a b j hne hmem' hworker' hmore hk
    rw [own b hmore] at hk
    exact claims.ne_of_owner hmem hworker hne hmem' hworker' (Option.some.inj hk).symm

/-- The same for a deed of the worker that the call has for itself. -/
lemma deed (claims : Claims issued consumed p) (more : Option Activity) (hmem : (who, a) ∈ p.busy)
    (hworker : a.worker? = some k) {crew crew' : Crew} {d : Crew.Deed} {report : Crew.Report}
    (hstep : crew.step (.worker k d) = some (crew', report)) (hcrew : p.crew = some crew)
    (hcrew' : p'.crew = some crew') (threads : p'.threads = p.threads)
    (busy : p'.busy = p.busyAfter who more)
    (fits : ∀ b, more = some b → b.Fits p'.stake? issued who)
    (own : ∀ b, more = some b → b.worker? = some k) : Claims issued consumed p' := by
  apply claims.owns more hmem hworker _ _ threads busy fits own
  · rw [stake?_of_crew hcrew']
    exact Crew.stake?_step_ne_none hstep
  · intro j hj
    rw [stake?_of_crew hcrew, stake?_of_crew hcrew']
    exact Crew.stake?_step_ne hstep hj

lemma enrolls (claims : Claims issued consumed p) {h : Handle}
    (hmem : (who, .enrolling k) ∈ p.busy) (step : Table.Inserted p.threads k h p'.threads)
    (stakes : p'.stake? = p.stake?) (busy : p'.busy = p.busyAfter who none) :
    Claims (issued ++ [(h.toRaw, k)]) consumed p' := by
  obtain ⟨hstake, hnew⟩ := claims.fits who _ hmem
  apply claims.update busy
  · exact claims.tracks.insert step
  · rw [List.map_append, List.map_singleton, ← List.concat_eq_append]
    exact claims.workers_nodup.concat hnew
  · intro j hj
    rw [stakes]
    rw [List.map_append, List.mem_append] at hj
    rcases hj with hold | hlast
    · exact claims.known j hold
    · rw [List.mem_singleton.mp hlast, hstake]
      simp
  · intro raw j hraw hlive
    rw [stakes]
    rcases List.mem_append.mp hraw with hold | hlast
    · exact claims.held raw j hold hlive
    · obtain ⟨-, rfl⟩ := Prod.mk.inj (List.mem_singleton.mp hlast)
      exact hstake
  · exact List.subset_append_left _ _
  · simp
  · intro who' a j hne hmem' hworker'
    have hjk := claims.ne_of_owner hmem rfl hne hmem' hworker'
    refine ⟨congrFun stakes j, fun hin => ?_⟩
    rw [List.map_append, List.mem_append] at hin
    exact hin.resolve_right fun hlast => hjk (List.mem_singleton.mp hlast)
  · simp

lemma consumes (claims : Claims issued consumed p) {h : Handle}
    (step : Table.Removed p.threads h k p'.threads)
    (stake : p'.stake? k = some (.joinable, .joining))
    (others : ∀ j ≠ k, p'.stake? j = p.stake? j)
    (busy : p'.busy = p.busyAfter who (some (.joining k))) :
    Claims issued (consumed ++ [h.toRaw]) p' := by
  obtain ⟨hraw, hlive⟩ :=
    (claims.tracks.live h k).mp (Table.find_eq_ok_iff.mpr step.live)
  have hfree : ∀ who' a j, (who', a) ∈ p.busy → a.worker? = some j → j ≠ k := by
    rintro who' a j hmem hworker rfl
    exact hlive (claims.consumed_of_owner hmem hworker hraw)
  apply claims.update busy
  · exact claims.tracks.remove step
  · exact claims.workers_nodup
  · intro j hj
    by_cases hjk : j = k
    · rw [hjk, stake]
      simp
    · rw [others j hjk]
      exact claims.known j hj
  · intro raw j hissued hnot
    rw [List.mem_append, not_or, List.mem_singleton] at hnot
    have hjk : j ≠ k := by
      rintro rfl
      have hsame := List.inj_on_of_nodup_map claims.workers_nodup hissued hraw rfl
      exact hnot.2 (Prod.mk.inj hsame).1
    rw [others j hjk]
    exact claims.held raw j hissued hnot.1
  · exact List.Subset.refl _
  · intro b hb
    cases hb
    exact stake
  · exact fun who' a j _ hmem hworker => ⟨others j (hfree who' a j hmem hworker), id⟩
  · intro who' a b j _ hmem hworker hb hk
    cases hb
    exact hfree who' a j hmem hworker (Option.some.inj hk).symm

end Claims

end Host
end Strand
