import Strand.Proofs.Host.Leads
import Strand.Proofs.Host.Turns

/-! The channels of a host run beside each other as each would run alone. The turns on a channel,
taken out of the run of the host with all that came of them, are a run of that channel by itself;
and a party that is parked on it has its call there still in progress. -/
namespace Strand.Host
variable {p : Host} {trace : List Moment} {m : Moment} {raw : UInt64} {n wanted : Nat}

/-- The turn that a step is on the channel `n`. -/
def Moment.turnOn? (n : Nat) (m : Moment) : Option (Party × Activity × Option Reply) :=
  match m.action with
  | .resume who =>
    (m.before.busy.lookup who).bind fun a =>
      if a.channel? = some n then some (who, a, m.effect.reply) else none
  | _ => none

/-- The turns on the channel `n` in a run. -/
def turnsOn (n : Nat) (trace : List Moment) : List (Party × Activity × Option Reply) :=
  trace.filterMap (Moment.turnOn? n)

/-- How the channels stand to the turns taken on them, and to the calls in progress. -/
structure Channelled (trace : List Moment) (p : Host) : Prop where
  solo : ∀ n raw wanted, (openedIn trace)[n]? = some (raw, wanted) →
    ∃ s, p.made[n]? = some s ∧ Solo wanted (turnsOn n trace) s
  untouched : ∀ n, p.made.length ≤ n → turnsOn n trace = []
  inside : ∀ who a n, p.busy.lookup who = some a → a.channel? = some n → n < p.made.length
  /-- A party is parked on the channel that it has found, and nowhere else. -/
  parked : ∀ n s who, p.made[n]? = some s → who ∈ s.parked →
    ∃ a, p.busy.lookup who = some a ∧ a.channel? = some n ∧ a.mayWait = true

namespace Channelled
variable {p' : Host} {who : Party} {a : Activity} {s : Shared Party Int64} {pick : Nat}

lemma ofSource (source : Settings.Source) : Channelled [] (Host.ofSource source) where
  solo _ _ _ h := by simp [openedIn] at h
  untouched _ _ := rfl
  inside _ _ _ h := by cases h
  parked _ _ _ h := by simp [Host.ofSource] at h

/-- A party that has no call in progress on a channel is not parked. -/
lemma not_parked (channelled : Channelled trace p)
    (off : ∀ a n, p.busy.lookup who = some a → a.channel? ≠ some n) (there : p.made[n]? = some s) :
    who ∉ s.parked := fun hmem => by
  obtain ⟨a, ha, hon, -⟩ := channelled.parked n s who there hmem
  exact off a n ha hon

/-- A step of `who` that is no turn keeps all channels; it may make a new one. -/
lemma keeps (channelled : Channelled trace p) (who : Party)
    (length : p.made.length = (openedIn trace).length) (turnless : ∀ n, m.turnOn? n = none)
    (made : p'.made = p.made ++
      m.opened?.toList.map fun entry => .ofChannel (.ofCapacity entry.2))
    (busy : p'.busy = p.busy ∨
      (∀ a n, p.busy.lookup who = some a → a.channel? ≠ some n) ∧
        ∃ more, p'.busy = p.busyAfter who more ∧
          ∀ a n, more = some a → a.channel? = some n → n < p.made.length) :
    Channelled (trace ++ [m]) p' := by
  have hturns : ∀ n, turnsOn n (trace ++ [m]) = turnsOn n trace := by
    intro n
    rw [turnsOn, filterMap_concat, turnless]
    exact List.append_nil _
  have hlookup : ∀ k, p'.busy.lookup k = p.busy.lookup k ∨
      k = who ∧ (∀ a n, p.busy.lookup k = some a → a.channel? ≠ some n) ∧
        ∀ a n, p'.busy.lookup k = some a → a.channel? = some n → n < p.made.length := by
    intro k
    rcases busy with hsame | ⟨hoff, more, hbusy, hmore⟩
    · exact .inl (by rw [hsame])
    · rw [hbusy, lookup_busyAfter]
      split
      next hk =>
        subst hk
        exact .inr ⟨rfl, hoff, hmore⟩
      · exact .inl rfl
  have hle : p.made.length ≤ p'.made.length := by
    rw [made, List.length_append]
    omega
  refine ⟨fun n raw wanted hopened => ?_, fun n hn => ?_, fun k a n ha hon => ?_,
    fun n s k hs hmem => ?_⟩
  · rw [openedIn, filterMap_concat, ← openedIn] at hopened
    rw [hturns, made]
    rcases Nat.lt_or_ge n p.made.length with hn | hn
    · rw [List.getElem?_append_left (length ▸ hn)] at hopened
      rw [List.getElem?_append_left hn]
      exact channelled.solo n raw wanted hopened
    · rw [List.getElem?_append_right (length ▸ hn), ← length] at hopened
      rw [List.getElem?_append_right hn, channelled.untouched n hn, List.getElem?_map, hopened]
      exact ⟨_, rfl, .start⟩
  · rw [hturns]
    exact channelled.untouched n (hle.trans hn)
  · rcases hlookup k with hsame | ⟨-, -, hmore⟩
    · rw [hsame] at ha
      exact Nat.lt_of_lt_of_le (channelled.inside k a n ha hon) hle
    · exact Nat.lt_of_lt_of_le (hmore a n ha hon) hle
  · have hold : p.made[n]? = some s := by
      rw [made] at hs
      rcases Nat.lt_or_ge n p.made.length with hn | hn
      · rwa [List.getElem?_append_left hn] at hs
      · -- A new channel has nobody parked.
        rw [List.getElem?_append_right hn, List.getElem?_map] at hs
        obtain ⟨entry, -, rfl⟩ := Option.map_eq_some_iff.mp hs
        cases hmem
    obtain ⟨a, ha, hon, hwaits⟩ := channelled.parked n s k hold hmem
    rcases hlookup k with hsame | ⟨-, hoff, -⟩
    · exact ⟨a, hsame.trans ha, hon, hwaits⟩
    · exact absurd hon (hoff a n ha)

/-- A turn of `who` changes the channel that it has found, and leaves it only when it is over. -/
lemma turn (channelled : Channelled trace p) (found : p.busy.lookup who = some a)
    (on : a.channel? = some n) (there : p.made[n]? = some s) (ready : who ∉ s.parked)
    (unopened : m.opened? = none)
    (turns : ∀ k, m.turnOn? k = if k = n then some (who, a, (a.act s who pick).1) else none) :
    Channelled (trace ++ [m]) (p.afterTurn who n (a.act s who pick)) := by
  have hn := channelled.inside who a n found on
  have hlength : (p.afterTurn who n (a.act s who pick)).made.length = p.made.length :=
    List.length_set
  have hothers : ∀ k, k ≠ who →
      (p.afterTurn who n (a.act s who pick)).busy.lookup k = p.busy.lookup k := by
    intro k hk
    simp only [afterTurn]
    split
    · rw [lookup_busyAfter, if_neg hk]
    · rfl
  refine ⟨fun k raw wanted hraw => ?_, fun k hk => ?_, fun k b j hb hon => ?_,
    fun j t k ht hmem => ?_⟩
  · rw [openedIn_concat unopened] at hraw
    obtain ⟨t, ht, solo⟩ := channelled.solo k raw wanted hraw
    rw [turnsOn, filterMap_concat, turns, ← turnsOn, afterTurn]
    by_cases hk : k = n
    · subst hk
      rw [there, Option.some.injEq] at ht
      subst ht
      rw [if_pos rfl, List.getElem?_set_self hn]
      exact ⟨_, rfl, solo.turn ready a pick⟩
    · rw [if_neg hk, List.getElem?_set_ne (Ne.symm hk)]
      exact ⟨t, ht, by simpa using solo⟩
  · rw [hlength] at hk
    rw [turnsOn, filterMap_concat, turns, if_neg (by omega), ← turnsOn, channelled.untouched k hk]
    rfl
  · rw [hlength]
    by_cases hk : k = who
    · subst hk
      simp only [afterTurn] at hb
      split at hb
      · rw [lookup_busyAfter, if_pos rfl] at hb
        cases hb
      · exact channelled.inside k b j hb hon
    · rw [hothers k hk] at hb
      exact channelled.inside k b j hb hon
  · by_cases hj : j = n
    · subst hj
      rw [afterTurn, List.getElem?_set_self hn, Option.some.injEq] at ht
      subst ht
      rcases parked_act hmem with hold | ⟨rfl, hnone, hwaits⟩
      · have hk : k ≠ who := by
          rintro rfl
          exact ready hold
        rw [hothers k hk]
        exact channelled.parked j s k there hold
      · refine ⟨a, ?_, on, hwaits⟩
        rw [afterTurn, hnone]
        exact found
    · rw [afterTurn, List.getElem?_set_ne (Ne.symm hj)] at ht
      have hold := channelled.parked j t k ht hmem
      have hk : k ≠ who := by
        rintro rfl
        obtain ⟨b, hb, hon, -⟩ := hold
        rw [found, Option.some.injEq] at hb
        subst hb
        rw [on, Option.some.injEq] at hon
        exact hj hon.symm
      rw [hothers k hk]
      exact hold

/-- A call that goes on has taken a turn on its channel, where its party was not parked. -/
lemma turn_of_continue (channelled : Channelled trace p) (found : p.busy.lookup who = some a)
    (on : a.channel? = some n) {chance : Chance} {effect : Effect}
    (taken : p.continue? who chance a = some effect) :
    ∃ s lines, p.made[n]? = some s ∧ who ∉ s.parked ∧
      effect = ⟨p.afterTurn who n (a.act s who chance.pick), lines,
        (a.act s who chance.pick).1⟩ := by
  have hn := channelled.inside who a n found on
  have there := List.getElem?_eq_getElem hn
  have ready : who ∉ p.made[n].parked := by
    intro hparked
    obtain ⟨b, hb, -, hwaits⟩ := channelled.parked n _ who there hparked
    rw [found] at hb
    cases hb
    rw [continue_parked on there hwaits hparked] at taken
    cases taken
  obtain ⟨lines, hcame⟩ := continue_ready on there ready chance
  rw [hcame] at taken
  cases taken
  exact ⟨_, lines, there, ready, rfl⟩

end Channelled

end Strand.Host
