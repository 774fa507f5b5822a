import Strand.Proofs.Host.Routing

/-! A channel whose handle is released while all calls are blocked stays as it is for ever. Its one
handle was the only way to it, and those who are blocked on it cannot help each other, so nobody is
left who could take a turn on it. -/
namespace Strand.Host
variable {source : Settings.Source} {p p' : Host} {trace : List Moment} {raw : UInt64} {n : Nat}
  {who : Party} {chance : Chance} {effect : Effect}

/-- No call in progress can go on. -/
def CallsSettled (p : Host) : Prop := ∀ who chance, p.step chance (.resume who) = none

/-- No call can go on if all calls in progress are parked on their channels. -/
lemma CallsSettled.of_parked
    (h : ∀ entry ∈ p.busy, entry.2.mayWait = true ∧
      (entry.2.channel?.bind (p.made[·]?)).any (·.parked.contains entry.1) = true) :
    p.CallsSettled := by
  intro who chance
  cases found : p.busy.lookup who with
  | none => simp only [step, found, Option.bind_none]
  | some a =>
    obtain ⟨hwaits, hparked⟩ := h _ (mem_of_lookup found)
    obtain ⟨s, hs, hmem⟩ := (Option.any_eq_true _ _).mp hparked
    obtain ⟨n, hon, there⟩ := Option.bind_eq_some_iff.mp hs
    rw [step_resume found]
    exact continue_parked hon there hwaits (List.contains_iff_mem.mp hmem) chance

/-- The channel `n` and the calls in progress on it are the same in both hosts. -/
structure Spared (n : Nat) (p p' : Host) : Prop where
  made : p'.made[n]? = p.made[n]?
  calls : ∀ k a, a.channel? = some n → (p'.busy.lookup k = some a ↔ p.busy.lookup k = some a)

namespace Spared

lemma refl (n : Nat) (p : Host) : Spared n p p := ⟨rfl, fun _ _ _ => Iff.rfl⟩

lemma trans {q : Host} (first : Spared n p q) (second : Spared n q p') : Spared n p p' :=
  ⟨second.made.trans first.made,
    fun k a on => (second.calls k a on).trans (first.calls k a on)⟩

/-- A party that was not busy on a channel, and is not after its step, spares the channel. -/
lemma of_busy (who : Party) (made : p'.made[n]? = p.made[n]?)
    (busy : p'.busy = p.busy ∨
      (∀ a, p.busy.lookup who = some a → a.channel? ≠ some n) ∧
        ∃ more, p'.busy = p.busyAfter who more ∧ ∀ a, more = some a → a.channel? ≠ some n) :
    Spared n p p' := by
  refine ⟨made, fun k a on => ?_⟩
  rcases busy with hsame | ⟨hoff, more, hbusy, hmore⟩
  · rw [hsame]
  · rw [hbusy, lookup_busyAfter]
    split
    next hk =>
      subst hk
      exact iff_of_false (fun h => hmore a h on) (fun h => hoff a h on)
    · rfl

lemma of_aside (aside : Aside p who p')
    (off : ∀ a, p.busy.lookup who = some a → a.channel? ≠ some n) : Spared n p p' := by
  refine of_busy who (congrArg (·[n]?) aside.made)
    (aside.busy.imp_right fun ⟨more, hbusy, hmore⟩ => ⟨off, more, hbusy, fun a ha => ?_⟩)
  simp [hmore a ha]

/-- A call that is answered at once touches no channel that there was before. -/
lemma of_answer {q : Host} {lines : List Log.Line} {reply : Reply} (made : q.made[n]? = p.made[n]?)
    (busy : q.busy = p.busy) (idle : p.busy.lookup who = none) :
    Spared n p (q.answer who lines reply).host := by
  rw [answer_eq (busy ▸ idle)]
  exact of_busy who made (.inl busy)

end Spared

section
variable (routes : Routes trace p) (born : n < p.made.length)
  (unreached : ∀ raw, ¬Leads trace raw n)
include routes born unreached

/-- No call reaches a channel without a handle. -/
lemma spared_call (idle : p.busy.lookup who = none) (chance : Chance) (c : Call UInt64) :
    Spared n p (p.call who chance c).host := by
  rcases call_kinds c with ⟨capacity, rfl⟩ | ⟨raw, reply, hdefault, hkind⟩ | haside
  · change Spared n p (p.newChannel who chance.memory capacity).host
    rcases newChannel_cases p who chance.memory capacity with
      ⟨lines, hnone⟩ | ⟨h, channels, lines, -, hopened⟩
    · rw [hnone]
      exact .of_answer rfl rfl idle
    · rw [hopened]
      exact .of_answer (List.getElem?_append_left born) rfl idle
  · rcases hkind with rfl | hthrough
    · simp only [call, release]
      split <;> exact .of_answer rfl rfl idle
    · by_cases hfound : ∃ k, p.channels.findRaw raw = .ok k
      · obtain ⟨k, hfound⟩ := hfound
        obtain ⟨a, ha⟩ := hthrough k
        have hk : k ≠ n := by
          rintro rfl
          exact unreached raw ((routes.opened.leads raw k).mp hfound)
        rw [call_found ha hfound]
        refine .of_busy who rfl (.inr ⟨by simp [idle], some a, rfl, fun b hb => ?_⟩)
        cases hb
        simpa [channel?_of_through ha] using hk
      · obtain ⟨lines, hmissing⟩ := call_missing p who chance hdefault fun k hk => hfound ⟨k, hk⟩
        rw [hmissing]
        exact .of_answer rfl rfl idle
  · exact .of_aside (aside_call p who chance haside) (by simp [idle])

/-- No step touches a channel without a handle on which all calls are blocked. -/
lemma spared_step
    (blocked : ∀ k a, p.busy.lookup k = some a → a.channel? = some n →
      ∀ chance, p.step chance (.resume k) = none)
    {action : Action} (taken : p.step chance action = some effect) : Spared n p effect.host := by
  have crewed : ∀ {slots : ErrorSlots Party} {b : Crew.Action},
      { p with slots }.crewStep b = some effect → Spared n p effect.host := by
    intro slots b taken
    obtain ⟨crew, hhost⟩ := crewStep_eq taken
    rw [hhost]
    exact ⟨rfl, fun _ _ _ => Iff.rfl⟩
  cases action with
  | call who c =>
    simp only [Host.step, Option.ite_none_right_eq_some, Option.some.injEq] at taken
    obtain ⟨free, rfl⟩ := taken
    exact spared_call routes born unreached (lookup_of_free free) chance c
  | resume who =>
    obtain ⟨a, found, continued⟩ := Option.bind_eq_some_iff.mp taken
    have hoff : a.channel? ≠ some n := fun on => by
      rw [blocked who a found on chance] at taken
      cases taken
    have off : ∀ b, p.busy.lookup who = some b → b.channel? ≠ some n := fun b hb => by
      rw [found] at hb
      cases hb
      exact hoff
    cases hon : a.channel? with
    | none => exact .of_aside (aside_continue hon continued) off
    | some k =>
      have hk : k ≠ n := fun heq => hoff (heq ▸ hon)
      obtain ⟨s, lines, -, -, rfl⟩ := routes.channelled.turn_of_continue found hon continued
      refine .of_busy who (List.getElem?_set_ne hk) ?_
      simp only [afterTurn]
      split
      · exact .inr ⟨off, none, rfl, by simp⟩
      · exact .inl rfl
  | begin k => exact crewed taken
  | stop k =>
    simp only [Host.step, Option.ite_none_right_eq_some] at taken
    exact crewed taken.2
  | leave k => exact crewed taken

end

/-- A call that is blocked on a channel stays so while the channel is spared. -/
lemma Spared.blocked (spared : Spared n p p') (channelled : Channelled trace p) {a : Activity}
    (found : p.busy.lookup who = some a) (on : a.channel? = some n)
    (blocked : p.step chance (.resume who) = none) (chance' : Chance) :
    p'.step chance' (.resume who) = none := by
  have hn := channelled.inside who a n found on
  have there := List.getElem?_eq_getElem hn
  have hparked : who ∈ p.made[n].parked := by
    by_contra hready
    obtain ⟨lines, hcame⟩ := continue_ready on there hready chance
    rw [step_resume found, hcame] at blocked
    cases blocked
  obtain ⟨b, hb, -, hwaits⟩ := channelled.parked n _ who there hparked
  rw [found, Option.some.injEq] at hb
  subst hb
  rw [step_resume ((spared.calls who a on).mpr found)]
  exact continue_parked on (spared.made.trans there) hwaits hparked chance'

/-- No two handles lead to one channel. -/
lemma eq_of_leads {other : UInt64} (first : Leads trace raw n) (second : Leads trace other n) :
    other = raw := by
  obtain ⟨wanted, hfirst⟩ := names_of_leads first
  obtain ⟨wanted', hsecond⟩ := names_of_leads second
  rw [hfirst] at hsecond
  cases hsecond
  rfl

/-- No step gives out another handle of a channel that there was before. -/
lemma unreached_concat (routes : Routes trace p) {m : Moment} (born : n < p.made.length)
    (unreached : ∀ raw, ¬Leads trace raw n) : ∀ raw, ¬Leads (trace ++ [m]) raw n := by
  intro raw leads
  rcases leads_concat_iff.mp leads with ⟨hleads, -⟩ | ⟨-, hlength⟩
  · exact unreached raw hleads
  · rw [← routes.opened.length] at hlength
    omega

section
variable {all before later : List Moment} {m : Moment}

/-- Once no handle leads to a channel and all calls on it are blocked, no step touches it again. -/
lemma Run.spares (run : Run source all p) (hall : all = before ++ m :: later)
    (born : n < m.effect.host.made.length) (unreached : ∀ raw, ¬Leads (before ++ [m]) raw n)
    (blocked : ∀ k a, m.effect.host.busy.lookup k = some a → a.channel? = some n →
      ∀ chance, m.effect.host.step chance (.resume k) = none) :
    Spared n m.effect.host p ∧ ∀ raw, ¬Leads all raw n := by
  have channelled : Channelled (before ++ [m]) m.effect.host :=
    have ⟨earlier, taken⟩ := run.taken_at hall
    (earlier.step m.chance m.action taken).routes.channelled
  induction run generalizing later with
  | start => simp at hall
  | @step trace q effect run chance action taken ih =>
    rcases concat_eq_append_cons hall with ⟨rfl, rfl, rfl⟩ | ⟨rest, rfl, hrest⟩
    · exact ⟨.refl n _, unreached⟩
    · obtain ⟨spared, hnone⟩ := ih hrest
      have hborn : n < q.made.length := by
        have there := spared.made.trans (List.getElem?_eq_getElem born)
        exact (List.getElem?_eq_some_iff.mp there).1
      have hblocked : ∀ k a, q.busy.lookup k = some a → a.channel? = some n →
          ∀ chance, q.step chance (.resume k) = none := fun k a found on chance =>
        have hfound := (spared.calls k a on).mp found
        spared.blocked channelled hfound on (blocked k a hfound on chance) chance
      exact ⟨spared.trans (spared_step run.routes hborn hnone hblocked taken),
        unreached_concat run.routes hborn hnone⟩

end

/-- The channel `n` and all calls on it are the same in both hosts, and none of them can go on. -/
structure SealedOff (n : Nat) (p p' : Host) : Prop extends Spared n p p' where
  blocked : ∀ k a, p.busy.lookup k = some a → a.channel? = some n →
    ∀ chance, p'.step chance (.resume k) = none

/-- The release of the handle of a channel, while no call can go on, changes nothing but where this
one handle leads; and whatever all threads do afterwards, the channel and all calls that are blocked
on it stay as they are. -/
theorem Run.release_seals (run : Run source trace p) (settled : p.CallsSettled)
    (leads : Leads trace raw n) (free : p.isFree who = true) (chance : Chance) :
    n < p.made.length ∧ ∃ channels effect,
      p.step chance (.call who (.release raw)) = some effect ∧
      effect = ⟨{ p with channels }, [], some .nothing⟩ ∧
      (∀ other k, channels.findRaw other = .ok k ↔
        p.channels.findRaw other = .ok k ∧ other ≠ raw) ∧
      ∀ later p',
        Run source (trace ++ ⟨p, chance, .call who (.release raw), effect⟩ :: later) p' →
        SealedOff n p p' := by
  have routes := run.routes
  have born := routes.lt_of_leads leads
  have found := (routes.opened.leads raw n).mpr leads
  obtain ⟨channels, hremove⟩ := Table.exists_removeRaw_iff.mpr found
  obtain ⟨h, rfl, hstep⟩ := Table.removeRaw_eq_ok_iff.mp hremove
  have taken : p.step chance (.call who (.release h.toRaw)) =
      some ⟨{ p with channels }, [], some .nothing⟩ := by
    rw [Host.step, if_pos free, call, release, hremove]
    exact congrArg some (answer_eq (lookup_of_free free))
  refine ⟨born, channels, _, taken, rfl, fun other k => (Table.remove_cases hstep).findRaw_iff,
    fun later p' long => ?_⟩
  have unreached : ∀ raw, ¬Leads (trace ++ [⟨p, chance, .call who (.release h.toRaw),
      ⟨{ p with channels }, [], some .nothing⟩⟩]) raw n := by
    intro raw hleads
    rcases leads_concat_iff.mp hleads with ⟨hleads, hkept⟩ | ⟨hopened, -⟩
    · exact hkept ⟨who, by rw [eq_of_leads leads hleads]⟩
    · cases hopened
  have same : Spared n p { p with channels } := ⟨rfl, fun _ _ _ => Iff.rfl⟩
  have blocked : ∀ k a, p.busy.lookup k = some a → a.channel? = some n →
      ∀ chance, Host.step { p with channels } chance (.resume k) = none :=
    fun k a found on chance => same.blocked routes.channelled found on (settled k chance) chance
  have spared := same.trans (long.spares rfl born unreached blocked).1
  exact ⟨spared, fun k a found on chance =>
    spared.blocked routes.channelled found on (settled k chance) chance⟩

/-- A receiver is blocked on an empty channel when its handle is released, and another channel gets
the slot of the handle. -/
theorem blocked_receiver_stays : ∃ trace p later p',
    Run ⟨⟨[], []⟩, none⟩ trace p ∧ p.CallsSettled ∧ Leads trace 4294967296 0 ∧
    p.isFree (.outside 0) = true ∧ p.busy.lookup (.outside 1) = some (.receiving 0) ∧
    Run ⟨⟨[], []⟩, none⟩ (trace ++ later) p' ∧
    openedIn later = [(8589934592, 1)] ∧ SealedOff 0 p p' := by
  let calm : Chance := ⟨0, none, 1024⟩
  have fresh : Run ⟨⟨[], []⟩, none⟩ [] _ := .start
  have made := fresh.step calm (.call (.outside 0) (.newChannel 1)) rfl
  have waiting := (made.step calm (.call (.outside 1) (.receive 4294967296)) rfl).step calm
    (.resume (.outside 1)) rfl
  have released := waiting.step calm (.call (.outside 0) (.release 4294967296)) rfl
  have reused := released.step calm (.call (.outside 0) (.newChannel 1)) rfl
  have leads := (waiting.routes.opened.leads 4294967296 0).mp rfl
  refine ⟨_, _, [_, _], _, waiting, .of_parked (by decide), leads, rfl, rfl, reused, by decide, ?_⟩
  obtain ⟨-, channels, effect, taken, -, -, stays⟩ :=
    waiting.release_seals (.of_parked (by decide)) leads
      (show isFree _ (.outside 0) = true from rfl) calm
  cases (Option.some.inj taken : _ = effect)
  exact stays [_] _ reused

end Strand.Host
