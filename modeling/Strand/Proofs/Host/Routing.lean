import Strand.Proofs.Handle.Refusals
import Strand.Proofs.Host.Channelled
import Strand.Proofs.Host.Joins

/-! Every handle of a channel leads to the one channel it was given out for. What the calls through
a handle do is what they do to that channel by itself, until the handle is released; a number that
is no handle leads nowhere, and one that was released never leads to the channel that has its slot
now. -/
namespace Strand

/-- The call in progress on the channel `n` that a call begins as, and the handle it is made
through. -/
def Call.through? (n : Nat) : Call UInt64 → Option (UInt64 × Activity)
  | .send ch value => some (ch, .sending n value)
  | .receive ch => some (ch, .receiving n)
  | .receiveTagged ch (some out) => some (ch, .receivingInto n out)
  | .close ch => some (ch, .closing n)
  | .hasData ch => some (ch, .askingForData n)
  | .isClosed ch => some (ch, .askingWhetherClosed n)
  | _ => none

/-- The handle that a call is made through, and what it is told if that leads nowhere. -/
def Call.default? : Call UInt64 → Option (UInt64 × Reply)
  | .send ch _ | .close ch | .release ch => some (ch, .nothing)
  | .receive ch => some (ch, .code 0)
  | .receiveTagged ch (some out) => some (ch, .tagged false (some out))
  | .hasData ch => some (ch, .flag false)
  | .isClosed ch => some (ch, .flag true)
  | _ => none

/-- The entry point of a call that is made through the handle of a channel. -/
def Call.entry? {η : Type} : Call η → Option String
  | .send _ _ => some "tether_channel_send"
  | .receive _ => some "tether_channel_receive"
  | .receiveTagged _ _ => some "tether_channel_receive_tagged"
  | .close _ => some "tether_channel_close"
  | .hasData _ => some "tether_channel_has_data"
  | .isClosed _ => some "tether_channel_is_closed"
  | .release _ => some "tether_channel_release"
  | _ => none

namespace Host
variable {p : Host} {trace : List Moment} {m : Moment} {raw : UInt64} {n : Nat} {who : Party}
  {chance : Chance} {c : Call UInt64} {a : Activity} {reply : Reply} {effect : Effect}

/-- The calls that name a channel are all made through a handle, but for the one that makes it. -/
lemma call_kinds (c : Call UInt64) : (∃ capacity, c = .newChannel capacity) ∨
    (∃ raw reply, c.default? = some (raw, reply) ∧
      (c = .release raw ∨ ∀ n, ∃ a, c.through? n = some (raw, a))) ∨ c.isAside = true := by
  cases c with
  | newChannel capacity => exact .inl ⟨capacity, rfl⟩
  | send | receive | close | hasData | isClosed =>
    exact .inr (.inl ⟨_, _, rfl, .inr fun n => ⟨_, rfl⟩⟩)
  | receiveTagged ch out =>
    cases out with
    | none => exact .inr (.inr rfl)
    | some out => exact .inr (.inl ⟨_, _, rfl, .inr fun n => ⟨_, rfl⟩⟩)
  | release ch => exact .inr (.inl ⟨ch, _, rfl, .inl rfl⟩)
  | setError | takeError | hasError | clearError | spawn | join | sleep | liveCount =>
    exact .inr (.inr rfl)

lemma channel?_of_through (through : c.through? n = some (raw, a)) : a.channel? = some n := by
  cases c with
  | send | receive | close | hasData | isClosed =>
    cases through
    rfl
  | receiveTagged ch out =>
    cases out with
    | none => cases through
    | some out =>
      cases through
      rfl
  | _ => cases through

/-- A new channel comes with a new handle; without memory or a place for it there is neither. -/
lemma newChannel_cases (p : Host) (who : Party) (memory : Nat) (capacity : Int64) :
    (∃ lines, p.newChannel who memory capacity = p.answer who lines (.handle noHandle)) ∨
      ∃ h channels lines, p.channels.insert p.made.length = .ok (h, channels) ∧
        p.newChannel who memory capacity =
          { p with
            channels
            made := p.made ++ [Shared.ofChannel (.ofCapacity (asked capacity))] }.answer who lines
            (.handle h.toRaw) := by
  simp only [newChannel]
  cases hgranted : Channel.ofCapacity? memory
    (if capacity < 0 then 1 else capacity.toNatClampNeg) with
  | error shortage => exact .inl ⟨_, rfl⟩
  | ok c =>
    obtain rfl := Channel.eq_ofCapacity hgranted
    cases p.channels.insert p.made.length with
    | error e => exact .inl ⟨_, rfl⟩
    | ok inserted => exact .inr ⟨inserted.1, inserted.2, _, rfl, rfl⟩

/-- A call through a handle that leads to a channel goes on as an activity on this channel. -/
lemma call_found (through : c.through? n = some (raw, a)) (found : p.channels.findRaw raw = .ok n) :
    p.call who chance c = p.proceed who [] a := by
  cases c with
  | send | receive | close | hasData | isClosed =>
    cases through
    simp only [call, lookup, found]
  | receiveTagged ch out =>
    cases out with
    | none => cases through
    | some out =>
      cases through
      simp only [call, lookup, found]
  | _ => cases through

/-- A call through a number that reaches nothing reports why, and is told its default at once. -/
lemma call_refused (p : Host) (who : Party) (chance : Chance) {e : HandleError}
    (default : c.default? = some (raw, reply)) (failed : p.channels.findRaw raw = .error e) :
    ∃ entry, c.entry? = some entry ∧
      p.call who chance c = p.answer who [⟨.warn, entry ++ ": " ++ e.message⟩] reply := by
  cases c with
  | send | receive | close | hasData | isClosed =>
    cases default
    exact ⟨_, rfl, by simp only [call, lookup, failed]⟩
  | receiveTagged ch out =>
    cases out with
    | none => cases default
    | some out =>
      cases default
      exact ⟨_, rfl, by simp only [call, lookup, failed]⟩
  | release ch =>
    cases default
    refine ⟨_, rfl, ?_⟩
    simp only [call, release, Table.removeRaw_eq_error_iff.mpr failed]
    rfl
  | _ => cases default

lemma call_missing (p : Host) (who : Party) (chance : Chance)
    (default : c.default? = some (raw, reply)) (missing : ∀ n, p.channels.findRaw raw ≠ .ok n) :
    ∃ lines, p.call who chance c = p.answer who lines reply := by
  cases hfind : p.channels.findRaw raw with
  | error e =>
    obtain ⟨entry, -, hcall⟩ := call_refused p who chance default hfind
    exact ⟨_, hcall⟩
  | ok n => exact absurd hfind (missing n)

lemma lookup_of_free (free : p.isFree who = true) : p.busy.lookup who = none := by
  simp only [isFree, Bool.and_eq_true, Option.isNone_iff_eq_none] at free
  exact free.1

lemma busyAfter_none (idle : p.busy.lookup who = none) : p.busyAfter who none = p.busy := by
  refine List.filter_eq_self.mpr fun entry hmem => ?_
  have hne := List.lookup_eq_none_iff.mp idle entry hmem
  exact decide_eq_true fun heq => by simp [heq] at hne

/-- The answer to a call that has not gone on as an activity changes nothing. -/
lemma answer_eq {lines : List Log.Line} (idle : p.busy.lookup who = none) :
    p.answer who lines reply = ⟨p, lines, some reply⟩ := by
  have hbusy := busyAfter_none idle
  change (⟨{ p with busy := p.busyAfter who none }, lines, some reply⟩ : Effect) = _
  rw [hbusy]

/-- The handles and the channels of a host are in order after the steps of `trace`. -/
structure Routes (trace : List Moment) (p : Host) : Prop where
  opened : Opened trace p
  channelled : Channelled trace p

/-- A step that makes no channel, takes no turn on one and releases no handle that leads to one. -/
structure Moment.Uneventful (trace : List Moment) (m : Moment) : Prop where
  unopened : m.opened? = none
  turnless : ∀ n, m.turnOn? n = none
  kept : ∀ raw n, Leads trace raw n → ¬m.Releases raw

lemma Moment.uneventful_call (hnew : ∀ capacity, c ≠ .newChannel capacity)
    (hrelease : ∀ raw n, Leads trace raw n → c ≠ .release raw) :
    Moment.Uneventful trace ⟨p, chance, .call who c, effect⟩ where
  unopened := by
    cases c with
    | newChannel capacity => exact absurd rfl (hnew capacity)
    | _ => rfl
  turnless _ := rfl
  kept := by
    rintro raw n leads ⟨_, h⟩
    cases h
    exact hrelease raw n leads rfl

namespace Routes

/-- A handle leads to a channel that was made. -/
lemma lt_of_leads (routes : Routes trace p) (leads : Leads trace raw n) : n < p.made.length := by
  obtain ⟨wanted, hwanted⟩ := names_of_leads leads
  rw [routes.opened.length]
  exact (List.getElem?_eq_some_iff.mp hwanted).1

/-- Most steps change neither the channels nor what leads to them. -/
lemma passes {p' : Host} (routes : Routes trace p) (who : Party) (uneventful : m.Uneventful trace)
    (channels : p'.channels = p.channels) (made : p'.made = p.made)
    (busy : p'.busy = p.busy ∨
      (∀ a n, p.busy.lookup who = some a → a.channel? ≠ some n) ∧
        ∃ more, p'.busy = p.busyAfter who more ∧
          ∀ a n, more = some a → a.channel? = some n → n < p.made.length) :
    Routes (trace ++ [m]) p' where
  opened := routes.opened.same channels (congrArg List.length made) uneventful.unopened
    uneventful.kept
  channelled := by
    refine routes.channelled.keeps who routes.opened.length uneventful.turnless ?_ busy
    rw [made, uneventful.unopened]
    exact (List.append_nil _).symm

lemma aside {p' : Host} (routes : Routes trace p) (uneventful : m.Uneventful trace)
    (aside : Aside p who p') (off : ∀ a n, p.busy.lookup who = some a → a.channel? ≠ some n) :
    Routes (trace ++ [m]) p' := by
  refine routes.passes who uneventful aside.channels aside.made
    (aside.busy.imp_right fun ⟨more, hbusy, hmore⟩ => ⟨off, more, hbusy, fun a n ha hon => ?_⟩)
  rw [hmore a ha] at hon
  cases hon

/-- A call that is answered at once has changed nothing, unless it makes or releases a channel. -/
lemma answers {lines : List Log.Line} (routes : Routes trace p) (uneventful : m.Uneventful trace)
    (idle : p.busy.lookup who = none) : Routes (trace ++ [m]) (p.answer who lines reply).host := by
  rw [answer_eq idle]
  exact routes.passes who uneventful rfl rfl (.inl rfl)

lemma opens {capacity : Int64} (routes : Routes trace p) (idle : p.busy.lookup who = none)
    (chance : Chance) :
    Routes (trace ++ [⟨p, chance, .call who (.newChannel capacity),
        p.newChannel who chance.memory capacity⟩])
      (p.newChannel who chance.memory capacity).host := by
  have hkept : ∀ raw effect,
      ¬Moment.Releases ⟨p, chance, .call who (.newChannel capacity), effect⟩ raw := by
    rintro raw effect ⟨_, h⟩
    cases h
  rcases newChannel_cases p who chance.memory capacity with
    ⟨lines, hnone⟩ | ⟨h, channels, lines, hinsert, hopened⟩
  · rw [hnone]
    exact routes.answers ⟨rfl, fun _ => rfl, fun raw _ _ => hkept raw _⟩ idle
  · rw [hopened]
    have hgives : Moment.opened? ⟨p, chance, .call who (.newChannel capacity),
        answer { p with
          channels
          made := p.made ++ [Shared.ofChannel (.ofCapacity (asked capacity))] } who lines
          (.handle h.toRaw)⟩ = some (h.toRaw, asked capacity) := if_neg h.toRaw_ne_zero
    obtain ⟨released, tracks⟩ := routes.opened.tracks
    refine ⟨routes.opened.opens (Table.insert_cases tracks.sound hinsert) rfl
      List.length_append hgives fun raw => hkept raw _, ?_⟩
    refine routes.channelled.keeps who routes.opened.length (fun _ => rfl) ?_ (.inl ?_)
    · rw [hgives]
      rfl
    · exact busyAfter_none idle

lemma releases (routes : Routes trace p) (idle : p.busy.lookup who = none) (chance : Chance)
    (raw : UInt64) :
    Routes (trace ++ [⟨p, chance, .call who (.release raw), p.release who raw⟩])
      (p.release who raw).host := by
  simp only [release]
  cases hremove : p.channels.removeRaw raw with
  | error e =>
    refine routes.answers (Moment.uneventful_call (by simp) fun other n leads heq => ?_) idle
    cases heq
    obtain ⟨channels, hok⟩ := Table.exists_removeRaw_iff.mpr ((routes.opened.leads raw n).mpr leads)
    rw [hremove] at hok
    cases hok
  | ok removed =>
    obtain ⟨n, channels⟩ := removed
    obtain ⟨h, rfl, hstep⟩ := Table.removeRaw_eq_ok_iff.mp hremove
    refine ⟨routes.opened.releases (Table.remove_cases hstep) rfl rfl rfl fun raw => ?_, ?_⟩
    · constructor
      · rintro ⟨_, heq⟩
        cases heq
        rfl
      · rintro rfl
        exact ⟨who, rfl⟩
    · refine routes.channelled.keeps who routes.opened.length (fun _ => rfl) ?_ (.inl ?_)
      · exact (List.append_nil _).symm
      · exact busyAfter_none idle

/-- A call through a handle finds its channel, or is answered at once. -/
lemma looksUp (routes : Routes trace p) (idle : p.busy.lookup who = none) (chance : Chance)
    (default : c.default? = some (raw, reply)) (through : ∀ n, ∃ a, c.through? n = some (raw, a)) :
    Routes (trace ++ [⟨p, chance, .call who c, p.call who chance c⟩])
      (p.call who chance c).host := by
  have uneventful : ∀ effect, Moment.Uneventful trace ⟨p, chance, .call who c, effect⟩ := by
    intro effect
    obtain ⟨a, ha⟩ := through 0
    refine Moment.uneventful_call ?_ ?_
    · rintro capacity rfl
      cases ha
    · rintro raw n - rfl
      cases ha
  by_cases hfound : ∃ n, p.channels.findRaw raw = .ok n
  · obtain ⟨n, hfound⟩ := hfound
    obtain ⟨a, ha⟩ := through n
    have hn := routes.lt_of_leads ((routes.opened.leads raw n).mp hfound)
    rw [call_found ha hfound]
    refine routes.passes who (uneventful _) rfl rfl
      (.inr ⟨by simp [idle], some a, rfl, fun b j hb hon => ?_⟩)
    cases hb
    rw [channel?_of_through ha, Option.some.injEq] at hon
    exact hon ▸ hn
  · obtain ⟨lines, hmissing⟩ := call_missing p who chance default fun n hn => hfound ⟨n, hn⟩
    rw [hmissing]
    exact routes.answers (uneventful _) idle

lemma call (routes : Routes trace p) (idle : p.busy.lookup who = none) (chance : Chance)
    (c : Call UInt64) :
    Routes (trace ++ [⟨p, chance, .call who c, p.call who chance c⟩])
      (p.call who chance c).host := by
  rcases call_kinds c with ⟨capacity, rfl⟩ | ⟨raw, reply, hdefault, hkind⟩ | haside
  · exact routes.opens idle chance
  · rcases hkind with rfl | hthrough
    · exact routes.releases idle chance raw
    · exact routes.looksUp idle chance hdefault hthrough
  · refine routes.aside (Moment.uneventful_call ?_ ?_) (aside_call p who chance haside)
      (by simp [idle])
    · rintro capacity rfl
      cases haside
    · rintro raw n - rfl
      cases haside

/-- A turn on a channel is taken only by a party that is not parked there. -/
lemma resume (routes : Routes trace p) (found : p.busy.lookup who = some a)
    (taken : p.continue? who chance a = some effect) :
    Routes (trace ++ [⟨p, chance, .resume who, effect⟩]) effect.host := by
  have hkept : ∀ raw, ¬Moment.Releases ⟨p, chance, .resume who, effect⟩ raw := by
    rintro raw ⟨_, h⟩
    cases h
  cases hon : a.channel? with
  | none =>
    refine routes.aside ⟨rfl, fun n => ?_, fun raw _ _ => hkept raw⟩ (aside_continue hon taken) ?_
    · simp [Moment.turnOn?, found, hon]
    · intro b n hb
      rw [found, Option.some.injEq] at hb
      simp [← hb, hon]
  | some n =>
    obtain ⟨s, lines, there, ready, rfl⟩ := routes.channelled.turn_of_continue found hon taken
    refine ⟨?_, routes.channelled.turn found hon there ready rfl fun k => ?_⟩
    · exact routes.opened.same rfl List.length_set rfl fun raw _ _ => hkept raw
    · simp [Moment.turnOn?, found, hon, eq_comm]

/-- A worker that begins, stops or leaves keeps all as it is. -/
lemma crewStep (routes : Routes trace p) (uneventful : m.Uneventful trace)
    {slots : ErrorSlots Party} {b : Crew.Action}
    (taken : { p with slots }.crewStep b = some effect) : Routes (trace ++ [m]) effect.host := by
  obtain ⟨crew, hhost⟩ := crewStep_eq taken
  rw [hhost]
  exact routes.passes (.outside 0) uneventful rfl rfl (.inl rfl)

theorem step (routes : Routes trace p) {action : Action}
    (taken : p.step chance action = some effect) :
    Routes (trace ++ [⟨p, chance, action, effect⟩]) effect.host := by
  cases action with
  | call who c =>
    simp only [Host.step, Option.ite_none_right_eq_some, Option.some.injEq] at taken
    obtain ⟨free, rfl⟩ := taken
    exact routes.call (lookup_of_free free) chance c
  | resume who =>
    obtain ⟨a, found, taken⟩ := Option.bind_eq_some_iff.mp taken
    exact routes.resume found taken
  | begin k => exact routes.crewStep ⟨rfl, fun _ => rfl, by rintro raw n - ⟨_, h⟩; cases h⟩ taken
  | stop k =>
    simp only [Host.step, Option.ite_none_right_eq_some] at taken
    exact routes.crewStep ⟨rfl, fun _ => rfl, by rintro raw n - ⟨_, h⟩; cases h⟩ taken.2
  | leave k => exact routes.crewStep ⟨rfl, fun _ => rfl, by rintro raw n - ⟨_, h⟩; cases h⟩ taken

end Routes

theorem Run.routes {source : Settings.Source} (run : Run source trace p) : Routes trace p := by
  induction run with
  | start =>
    refine ⟨⟨⟨[], .empty⟩, fun raw n => ?_, rfl⟩, .ofSource source⟩
    refine iff_of_false (fun h => ?_) ?_
    · have hnever := (Table.Tracks.empty.findRaw_iff raw n).mp h
      cases hnever.1
    · rintro ⟨before, m, after, h, -⟩
      simp at h
  | step _ _ _ taken ih => exact ih.step taken

/-- All that there is to know about the handles of channels, after the steps of `trace`. -/
structure Routed (trace : List Moment) (p : Host) : Prop where
  /-- No number is given out twice, and no handle is like "none" or like the token of a detached
  thread. -/
  nodup : ((openedIn trace).map Prod.fst).Nodup
  high : ∀ raw ∈ (openedIn trace).map Prod.fst, 4294967296 ≤ raw.toNat
  token : ∀ id, detachedToken id ∉ (openedIn trace).map Prod.fst
  /-- A number that leads to a channel is the handle that was given out for it. -/
  names : ∀ raw n, Leads trace raw n → ∃ wanted, (openedIn trace)[n]? = some (raw, wanted)
  /-- What the turns on a channel came to is what they come to on that channel by itself. -/
  solo : ∀ n raw wanted, (openedIn trace)[n]? = some (raw, wanted) →
    ∃ s, p.made[n]? = some s ∧ Solo wanted (turnsOn n trace) s
  /-- A call through a handle finds the channel, and nothing else has changed when it does. -/
  begins : ∀ who chance c raw n a, p.isFree who = true → c.through? n = some (raw, a) →
    Leads trace raw n → a.channel? = some n ∧
      p.step chance (.call who c) = some (p.proceed who [] a)
  /-- A party that makes a call is parked nowhere, so that its first turn is never held up. -/
  ready : ∀ (who : Party) (n : Nat) (s : Shared Party Int64), p.isFree who = true →
    p.made[n]? = some s → who ∉ s.parked
  /-- Then the call takes its turns on this channel, unless it is parked there. They change the
  channel as a turn on it alone does, and no other channel, no table and no other call. -/
  turns : ∀ who chance n a, p.busy.lookup who = some a → a.channel? = some n →
    ∃ s, p.made[n]? = some s ∧
      (who ∉ s.parked → ∃ lines, p.step chance (.resume who) = some
        ⟨p.afterTurn who n (a.act s who chance.pick), lines, (a.act s who chance.pick).1⟩) ∧
      (who ∈ s.parked → p.step chance (.resume who) = none)
  /-- A call through a number that leads nowhere is over at once and changes nothing at all. -/
  nowhere : ∀ who chance c raw reply, p.isFree who = true → c.default? = some (raw, reply) →
    (∀ n, ¬Leads trace raw n) → ∃ lines, p.step chance (.call who c) = some ⟨p, lines, some reply⟩

/-- In every run, whatever all threads call and whichever of them takes the next step. -/
theorem Run.routed {source : Settings.Source} (run : Run source trace p) : Routed trace p := by
  have routes := run.routes
  refine ⟨routes.opened.nodup, fun raw => routes.opened.le_toNat, fun id hid => ?_,
    fun raw n => names_of_leads, routes.channelled.solo,
    fun who chance c raw n a free through leads => ?_, fun who n s free there => ?_,
    fun who chance n a found on => ?_, fun who chance c raw reply free default missing => ?_⟩
  · exact absurd (routes.opened.le_toNat hid) (Nat.not_le.mpr (toNat_detachedToken id))
  · have hfound := (routes.opened.leads raw n).mpr leads
    refine ⟨channel?_of_through through, ?_⟩
    rw [Host.step, if_pos free, call_found through hfound]
  · refine routes.channelled.not_parked (fun a n h => ?_) there
    rw [lookup_of_free free] at h
    cases h
  · have hn := routes.channelled.inside who a n found on
    have there := List.getElem?_eq_getElem hn
    refine ⟨_, there, fun ready => ?_, fun parked => ?_⟩
    · rw [step_resume found]
      exact continue_ready on there ready chance
    · obtain ⟨b, hb, -, hwaits⟩ := routes.channelled.parked n _ who there parked
      rw [found, Option.some.injEq] at hb
      subst hb
      rw [step_resume found]
      exact continue_parked on there hwaits parked chance
  · have hmissing : ∀ n, p.channels.findRaw raw ≠ .ok n := fun n hn =>
      missing n ((routes.opened.leads raw n).mp hn)
    obtain ⟨lines, hcall⟩ := call_missing p who chance default hmissing
    exact ⟨lines, by rw [Host.step, if_pos free, hcall, answer_eq (lookup_of_free free)]⟩

/-- A sender waits on a full channel while its handle is released, and the slot of the handle goes
to another channel. -/
theorem released_handle_spares_newcomer : ∃ trace p, Run ⟨⟨[], []⟩, none⟩ trace p ∧
    openedIn trace = [(4294967296, 1), (8589934592, 5)] ∧
    turnsOn 0 trace =
      [(.outside 0, .sending 0 7, some .nothing), (.outside 1, .sending 0 8, none)] ∧
    p.busy.lookup (.outside 1) = some (.sending 0 8) ∧
    Leads trace 8589934592 1 ∧ (∀ n, ¬Leads trace 4294967296 n) ∧ Routed trace p := by
  let calm : Chance := ⟨0, none, 1024⟩
  have fresh : Run ⟨⟨[], []⟩, none⟩ [] _ := .start
  have made := fresh.step calm (.call (.outside 0) (.newChannel (-3))) rfl
  have full := (made.step calm (.call (.outside 0) (.send 4294967296 7)) rfl).step calm
    (.resume (.outside 0)) rfl
  have waiting := (full.step calm (.call (.outside 1) (.send 4294967296 8)) rfl).step calm
    (.resume (.outside 1)) rfl
  have released := waiting.step calm (.call (.outside 0) (.release 4294967296)) rfl
  have reused := released.step calm (.call (.outside 0) (.newChannel 5)) rfl
  refine ⟨_, _, reused, by decide, by decide, by decide,
    leads_concat_iff.mpr (.inr ⟨by decide, by decide⟩), fun n h => ?_, reused.routed⟩
  rcases leads_concat_iff.mp h with ⟨h, -⟩ | ⟨h, -⟩
  · rcases leads_concat_iff.mp h with ⟨-, h⟩ | ⟨h, -⟩
    · exact h ⟨_, rfl⟩
    · cases h
  · exact absurd h (by decide)

end Host
end Strand
