import Strand.Proofs.Handle.Refinement
import Strand.Proofs.Host.Codes

/-! The token of a detached thread names the thread and gives access to nothing. It is taken from
the numbers below all handles, whatever the number of the thread is, so no table ever gives it out;
and what a call does with it is what it does with a number that was never given out. -/
namespace Strand

namespace Table
variable {α : Type} {t : Table α} {raw : UInt64}

lemma findRaw_of_low (low : raw.toNat < 4294967296) : t.findRaw raw = .error (.invalid raw) := by
  rw [findRaw, Handle.ofRaw_eq_error_iff.mpr ⟨low, rfl⟩]

lemma Tracks.not_issued_of_low {issued : List (UInt64 × α)} {removed : List UInt64}
    (tracks : Tracks t issued removed) (low : raw.toNat < 4294967296) :
    raw ∉ issued.map Prod.fst := by
  intro hissued
  obtain ⟨h, rfl⟩ := tracks.handle raw hissued
  exact absurd h.le_toNat_toRaw (Nat.not_le.mpr low)

/-- No table ever gives out a number below all handles, whatever is called on it. -/
lemma not_issued_of_low (ops : List (Op α)) (low : raw.toNat < 4294967296) :
    raw ∉ (Ledger.issued ((empty : Table α).performAll ops).1).map Prod.fst :=
  (recorded_performAll ops).tracks.not_issued_of_low low

end Table

namespace Host
variable {source : Settings.Source} {trace : List Moment} {p : Host} {who : Party}
  {chance : Chance} {c : Call UInt64} {raw : UInt64} {reply : Reply} {effect : Effect}

lemma detachedToken_ne_noHandle (id : UInt64) : detachedToken id ≠ noHandle := by
  intro h
  have htoken := toNat_detachedToken_eq id
  rw [h, noHandle, UInt64.toNat_zero] at htoken
  omega

/-- What comes of a join of a number that is no handle. -/
structure JoinsInvalid (source : Settings.Source) (p : Host) (who : Party) (chance : Chance)
    (raw : UInt64) (effect : Effect) : Prop where
  rejected : effect = p.reject who chance.pick (HandleError.invalid raw).message
  /-- It is reported, at the level that the policy asks for. -/
  lines : effect.lines = p.crewed.2 ++
    [⟨if (Settings.configured source).invalidJoin = .ignore then .trace else .warn,
      "tether_thread_join: " ++ (HandleError.invalid raw).message⟩]
  /-- It is answered at once, and no table loses an entry. -/
  away : TurnedAway p who chance.pick effect
  policy : Rejected source p who effect
  busy : effect.host.busy = p.busy

lemma lines_reject (p : Host) (who : Party) (pick : Nat) (text : String) :
    (p.reject who pick text).lines = p.crewed.2 ++
      [⟨if p.crewed.1.settings.invalidJoin = .ignore then .trace else .warn,
        "tether_thread_join: " ++ text⟩] := by
  simp only [reject]
  cases p.crewed.1.settings.invalidJoin <;> rfl

lemma busy_reject (idle : p.busy.lookup who = none) (pick : Nat) (text : String) :
    (p.reject who pick text).host.busy = p.busy := by
  have hbusy := busyAfter_none idle
  simp only [reject]
  cases p.crewed.1.settings.invalidJoin <;> exact hbusy

lemma join_low (ne : raw ≠ noHandle) (low : raw.toNat < 4294967296) (pick : Nat) :
    p.join who pick raw = p.reject who pick (HandleError.invalid raw).message := by
  rw [join, if_neg ne, Table.findRaw_of_low low]

lemma joinsInvalid (run : Run source trace p) (free : p.isFree who = true) (chance : Chance)
    (ne : raw ≠ noHandle) (low : raw.toNat < 4294967296) :
    ∃ effect, p.step chance (.call who (.join raw)) = some effect ∧
      JoinsInvalid source p who chance raw effect := by
  have taken : p.step chance (.call who (.join raw)) =
      some (p.reject who chance.pick (HandleError.invalid raw).message) := by
    rw [step, if_pos free, call, join_low ne low]
  have away := turnedAway_reject p who chance.pick (HandleError.invalid raw).message
  refine ⟨_, taken, rfl, ?_, away, rejected_of_turnedAway run taken rfl away,
    busy_reject (lookup_of_free free) _ _⟩
  rw [lines_reject, run.settings_crewed]

/-- What a number is to a host after the steps of `trace`, if no table gives it out and every call
refuses it. -/
structure Foreign (source : Settings.Source) (trace : List Moment) (p : Host) (raw : UInt64) :
    Prop where
  ne_noHandle : raw ≠ noHandle
  /-- No table gives it out, whatever it stores and whatever is called on it. -/
  not_issued : ∀ {α : Type} (ops : List (Table.Op α)),
    raw ∉ (Table.Ledger.issued ((Table.empty : Table α).performAll ops).1).map Prod.fst
  no_thread : raw ∉ (issuedIn trace).map Prod.fst
  no_channel : raw ∉ (openedIn trace).map Prod.fst
  /-- No call in progress is about to join it. -/
  not_removing : ∀ who, p.busy.lookup who ≠ some (.removing raw)
  join : ∀ who chance, p.isFree who = true →
    ∃ effect, p.step chance (.call who (.join raw)) = some effect ∧
      JoinsInvalid source p who chance raw effect
  /-- A call through it as the handle of a channel reports it as invalid, answers at once what calls
  through invalid handles answer, and changes nothing. -/
  through : ∀ who chance c reply, p.isFree who = true → c.default? = some (raw, reply) →
    ∃ entry, c.entry? = some entry ∧ p.step chance (.call who c) =
      some ⟨p, [⟨.warn, entry ++ ": " ++ (HandleError.invalid raw).message⟩], some reply⟩
  /-- A call without a place to receive into reports that, before it looks at any number, and
  receives nothing either. -/
  no_place : ∀ who chance, p.isFree who = true →
    p.step chance (.call who (.receiveTagged raw none)) = some
      ⟨p, [⟨.warn, "tether_channel_receive_tagged: null output pointer"⟩],
        some (.tagged false none)⟩

theorem foreign_of_low (run : Run source trace p) (ne : raw ≠ noHandle)
    (low : raw.toNat < 4294967296) : Foreign source trace p raw where
  ne_noHandle := ne
  not_issued ops := Table.not_issued_of_low ops low
  no_thread := run.claims.tracks.not_issued_of_low low
  no_channel hopened := absurd (run.routes.opened.le_toNat hopened) (Nat.not_le.mpr low)
  not_removing who found := by
    obtain ⟨k, hissued, -⟩ := run.claims.fits _ _ (mem_of_lookup found)
    exact run.claims.tracks.not_issued_of_low low (List.mem_map_of_mem hissued)
  join who chance free := joinsInvalid run free chance ne low
  through who chance c reply free default := by
    obtain ⟨entry, hentry, hcall⟩ :=
      call_refused p who chance default (Table.findRaw_of_low low)
    exact ⟨entry, hentry, by rw [step, if_pos free, hcall, answer_eq (lookup_of_free free)]⟩
  no_place who chance free := by
    rw [step, if_pos free, call, answer_eq (lookup_of_free free)]

/-- The number that a spawn of a detached thread comes to is the token of the thread, or zero. -/
lemma reply_of_detached {k : Nat} (launching : p.busy.lookup who = some (.launching .detached k))
    (taken : p.step chance (.resume who) = some effect) (told : effect.reply = some (.handle raw)) :
    raw = noHandle ∨ raw = detachedToken (UInt64.ofNat (Crew.idOf k)) := by
  rw [step_resume launching] at taken
  cases launch_cases taken with
  | goesOn => cases told
  | fails =>
    cases told
    exact .inl rfl
  | tells =>
    cases told
    exact .inr rfl
  | hands joinable => cases joinable

/-- In every run, whatever all threads call, every token is a number apart from all handles; and
what a spawn of a detached thread gives out, if anything, is its token. -/
theorem Run.tokens_lead_nowhere (run : Run source trace p) :
    (∀ id, Foreign source trace p (detachedToken id)) ∧
    ∀ who chance k effect raw, p.busy.lookup who = some (.launching .detached k) →
      p.step chance (.resume who) = some effect → effect.reply = some (.handle raw) →
      raw = noHandle ∨ raw = detachedToken (UInt64.ofNat (Crew.idOf k)) :=
  ⟨fun id => foreign_of_low run (detachedToken_ne_noHandle id) (toNat_detachedToken id),
    fun _ _ _ _ _ => reply_of_detached⟩

/-- A channel and a joinable thread have their handles when a detached thread gets its token, which
is also that of a thread far beyond. A join of the token leaves both where they are. -/
theorem token_leaves_tables_alone : ∃ trace p, Run ⟨⟨[], []⟩, none⟩ trace p ∧
    (trace.map fun m => m.effect.reply).getLast? = some (some (.handle 2)) ∧
    detachedToken 4294967298 = 2 ∧ Foreign ⟨⟨[], []⟩, none⟩ trace p (detachedToken 4294967298) ∧
    p.channels.size = 1 ∧ p.threads.size = 1 ∧
    ∃ effect, p.step ⟨0, none, 1024⟩ (.call (.outside 1) (.join (detachedToken 4294967298))) =
        some effect ∧
      effect.reply = some .nothing ∧ effect.host.threads.size = 1 ∧
      effect.lines = [⟨.warn, "tether_thread_join: Invalid handle: 0x2"⟩] := by
  let calm : Chance := ⟨0, none, 1024⟩
  have fresh : Run ⟨⟨[], []⟩, none⟩ [] _ := .start
  have opened := fresh.step calm (.call (.outside 0) (.newChannel 3)) rfl
  have joinable := ((((opened.step calm (.call (.outside 0) (.spawn .joinable true)) rfl).step calm
    (.resume (.outside 0)) rfl).step calm (.resume (.outside 0)) rfl).step calm
    (.resume (.outside 0)) rfl).step calm (.resume (.outside 0)) rfl
  have detached := (((joinable.step calm (.call (.outside 0) (.spawn .detached true)) rfl).step calm
    (.resume (.outside 0)) rfl).step calm (.resume (.outside 0)) rfl).step calm
    (.resume (.outside 0)) rfl
  have apart := detached.tokens_lead_nowhere.1 4294967298
  obtain ⟨effect, taken, joins⟩ := apart.join (.outside 1) calm rfl
  refine ⟨_, _, detached, by decide, rfl, apart, by decide, by decide, effect, taken,
    joins.away.at_once, ?_, ?_⟩
  · rw [joins.away.threads]
    decide
  · rw [joins.rejected]
    rfl

end Host
end Strand
