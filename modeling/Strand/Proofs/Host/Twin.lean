import Strand.Proofs.Host.Routing

/-! Two hosts that differ only in what one party is about. Whatever anybody else does, it does the
same in both, as nobody looks at the call in progress of another; so the hosts go on to differ in
nothing else until that party takes a step itself. -/
namespace Strand.Host
variable {p q : Host} {who other : Party} {a b c : Activity} {lines : List Log.Line}
  {reply : Reply}

/-- Calls in progress, with another one for `who` if there is one. -/
def retold (who : Party) (b : Activity) (busy : List (Party × Activity)) :
    List (Party × Activity) :=
  busy.map fun entry => if entry.1 = who then (who, b) else entry

/-- The host `q` is `p` but for `who`, whose call in progress is `a` in one and `b` in the other. -/
structure Twin (who : Party) (a b : Activity) (p q : Host) : Prop where
  waits : p.busy.lookup who = some a
  eq : q = { p with busy := retold who b p.busy }

/-- Two steps that come to the same, but for what `who` is about. -/
structure Together (who : Party) (a b : Activity) (e e' : Effect) : Prop where
  host : Twin who a b e.host e'.host
  lines : e.lines = e'.lines
  reply : e.reply = e'.reply

lemma retold_cons_self (busy : List (Party × Activity)) :
    retold who b ((who, a) :: busy) = (who, b) :: retold who b busy := by
  rw [retold, List.map_cons, if_pos rfl, retold]

lemma retold_cons_ne (hother : other ≠ who) (busy : List (Party × Activity)) :
    retold who b ((other, a) :: busy) = (other, a) :: retold who b busy := by
  rw [retold, List.map_cons, if_neg hother, retold]

lemma filter_retold (who other : Party) (b : Activity) (busy : List (Party × Activity)) :
    (retold who b busy).filter (fun entry => entry.1 ≠ other) =
      retold who b (busy.filter fun entry => entry.1 ≠ other) := by
  rw [retold, retold, List.filter_map]
  congr 1
  refine List.filter_congr fun entry _ => ?_
  by_cases hwho : entry.1 = who <;> simp [hwho]

lemma retold_eq_self {busy : List (Party × Activity)} (absent : ∀ entry ∈ busy, entry.1 ≠ who) :
    retold who b busy = busy :=
  (List.map_congr_left fun entry hmem => if_neg (absent entry hmem)).trans (List.map_id' busy)

lemma lookup_retold_self {busy : List (Party × Activity)} (waits : busy.lookup who = some a) :
    (retold who b busy).lookup who = some b := by
  induction busy with
  | nil => cases waits
  | cons entry busy ih =>
    obtain ⟨other, c⟩ := entry
    by_cases hother : other = who
    · subst hother
      rw [retold_cons_self, List.lookup_cons_self]
    · rw [lookup_cons_ne (Ne.symm hother)] at waits
      rw [retold_cons_ne hother, lookup_cons_ne (Ne.symm hother), ih waits]

lemma lookup_retold_ne (hother : other ≠ who) (busy : List (Party × Activity)) :
    (retold who b busy).lookup other = busy.lookup other := by
  induction busy with
  | nil => rfl
  | cons entry busy ih =>
    obtain ⟨third, c⟩ := entry
    by_cases hwho : third = who
    · subst hwho
      rw [retold_cons_self, lookup_cons_ne hother, lookup_cons_ne hother, ih]
    · rw [retold_cons_ne hwho, List.lookup_cons, List.lookup_cons, ih]

lemma busyAfter_retold (hother : other ≠ who) (more : Option Activity) :
    busyAfter { p with busy := retold who b p.busy } other more =
      retold who b (p.busyAfter other more) := by
  have hrest := filter_retold who other b p.busy
  cases more with
  | none => exact hrest
  | some c => exact (congrArg _ hrest).trans (retold_cons_ne hother _).symm

namespace Twin
variable (twin : Twin who a b p q)
include twin

lemma isFree (other : Party) : q.isFree other = p.isFree other := by
  obtain ⟨waits, rfl⟩ := twin
  have hlookup : ((retold who b p.busy).lookup other).isNone = (p.busy.lookup other).isNone := by
    by_cases hother : other = who
    · rw [hother, lookup_retold_self waits, waits]
      rfl
    · rw [lookup_retold_ne hother]
  simp only [Host.isFree, hlookup]

lemma crewStep (c : Crew.Action) :
    Option.Rel (Together who a b) (p.crewStep c) (q.crewStep c) := by
  obtain ⟨waits, rfl⟩ := twin
  simp only [Host.crewStep]
  cases p.crew.bind fun crew => crew.step c with
  | none => exact .none
  | some stepped => exact .some ⟨⟨waits, rfl⟩, rfl, rfl⟩

section
variable (hother : other ≠ who)
include hother

/-- While another party goes on with its call or ends it, `who` is where it was. -/
lemma waits_busyAfter (more : Option Activity) : (p.busyAfter other more).lookup who = some a := by
  rw [lookup_busyAfter, if_neg (Ne.symm hother), twin.waits]

lemma answer : Together who a b (p.answer other lines reply) (q.answer other lines reply) := by
  have waits : (p.busyAfter other none).lookup who = some a := twin.waits_busyAfter hother none
  obtain ⟨-, rfl⟩ := twin
  exact ⟨⟨waits, congrArg (fun busy => { p with busy }) (busyAfter_retold hother none)⟩, rfl, rfl⟩

lemma proceed : Together who a b (p.proceed other lines c) (q.proceed other lines c) := by
  have waits : (p.busyAfter other (some c)).lookup who = some a :=
    twin.waits_busyAfter hother (some c)
  obtain ⟨-, rfl⟩ := twin
  exact ⟨⟨waits, congrArg (fun busy => { p with busy }) (busyAfter_retold hother (some c))⟩, rfl,
    rfl⟩

lemma newChannel (memory : Nat) (capacity : Int64) :
    Together who a b (p.newChannel other memory capacity) (q.newChannel other memory capacity) := by
  obtain ⟨waits, rfl⟩ := twin
  simp only [Host.newChannel]
  cases Channel.ofCapacity? memory (if capacity < 0 then 1 else capacity.toNatClampNeg) with
  | error shortage => exact answer ⟨waits, rfl⟩ hother
  | ok c =>
    cases p.channels.insert p.made.length with
    | error e => exact answer ⟨waits, rfl⟩ hother
    | ok inserted => exact answer ⟨waits, rfl⟩ hother

lemma lookup (entry : String) (ch : UInt64) (default : Reply) (activity : Nat → Activity) :
    Together who a b (p.lookup other entry ch default activity)
      (q.lookup other entry ch default activity) := by
  obtain ⟨waits, rfl⟩ := twin
  simp only [Host.lookup]
  cases p.channels.findRaw ch with
  | error e => exact answer ⟨waits, rfl⟩ hother
  | ok n => exact proceed ⟨waits, rfl⟩ hother

lemma release (ch : UInt64) : Together who a b (p.release other ch) (q.release other ch) := by
  obtain ⟨waits, rfl⟩ := twin
  simp only [Host.release]
  cases p.channels.removeRaw ch with
  | error e => exact answer ⟨waits, rfl⟩ hother
  | ok removed => exact answer ⟨waits, rfl⟩ hother

lemma errorOp (pick : Nat) (op : ErrorSlot.Op) :
    Together who a b (p.errorOp other pick op) (q.errorOp other pick op) := by
  obtain ⟨waits, rfl⟩ := twin
  exact answer ⟨waits, rfl⟩ hother

lemma spawn (mode : SpawnMode) (given : Bool) :
    Together who a b (p.spawn other mode given) (q.spawn other mode given) := by
  obtain ⟨waits, rfl⟩ := twin
  cases given with
  | true => exact proceed ⟨waits, rfl⟩ hother
  | false => exact answer ⟨waits, rfl⟩ hother

lemma reject (pick : Nat) (text : String) :
    Together who a b (p.reject other pick text) (q.reject other pick text) := by
  obtain ⟨waits, rfl⟩ := twin
  have hcrewed : Host.crewed { p with busy := retold who b p.busy } = p.crewed := rfl
  simp only [Host.reject, hcrewed]
  cases p.crewed.1.settings.invalidJoin with
  | ignore | warn | setError => exact answer ⟨waits, rfl⟩ hother

lemma join (pick : Nat) (h : UInt64) :
    Together who a b (p.join other pick h) (q.join other pick h) := by
  obtain ⟨waits, rfl⟩ := twin
  simp only [Host.join]
  split
  · exact answer ⟨waits, rfl⟩ hother
  · cases p.threads.findRaw h with
    | error e => exact reject ⟨waits, rfl⟩ hother _ _
    | ok k =>
      dsimp only
      split
      · exact reject ⟨waits, rfl⟩ hother _ _
      · exact proceed ⟨waits, rfl⟩ hother

/-- A call of somebody else begins in the same way. -/
lemma call (chance : Chance) (c : Call UInt64) :
    Together who a b (p.call other chance c) (q.call other chance c) := by
  cases c with
  | newChannel capacity => exact twin.newChannel hother chance.memory capacity
  | send | receive | close | hasData | isClosed => exact twin.lookup hother _ _ _ _
  | receiveTagged ch out =>
    cases out with
    | none => exact twin.answer hother
    | some out => exact twin.lookup hother _ _ _ _
  | release ch => exact twin.release hother ch
  | setError | takeError | hasError | clearError =>
    simp only [Host.call]
    exact twin.errorOp hother _ _
  | spawn mode given => exact twin.spawn hother mode given
  | join h => exact twin.join hother _ h
  | sleep => exact twin.answer hother
  | liveCount =>
    obtain ⟨waits, rfl⟩ := twin
    exact answer ⟨waits, rfl⟩ hother

lemma turn {ρ : Type} (n : Nat) (reply : ρ → Reply)
    (act : Shared Party Int64 → Turn Party ρ × Shared Party Int64) :
    Option.Rel (Together who a b) (p.turn other n reply act) (q.turn other n reply act) := by
  obtain ⟨waits, rfl⟩ := twin
  simp only [Host.turn]
  cases p.made[n]? with
  | none => exact .none
  | some s =>
    dsimp only
    split
    · exact .none
    · cases (act s).1.result with
      | none => exact .some ⟨⟨waits, rfl⟩, rfl, rfl⟩
      | some result => exact .some (answer ⟨waits, rfl⟩ hother)

lemma look (n : Nat) (see : Channel Int64 → Bool) :
    Option.Rel (Together who a b) (p.look other n see) (q.look other n see) := by
  obtain ⟨waits, rfl⟩ := twin
  simp only [Host.look]
  cases p.made[n]? with
  | none => exact .none
  | some s => exact .some (answer ⟨waits, rfl⟩ hother)

lemma enroll (k : Nat) : Together who a b (p.enroll other k) (q.enroll other k) := by
  obtain ⟨waits, rfl⟩ := twin
  simp only [Host.enroll]
  cases p.threads.insert k with
  | error e => exact answer ⟨waits, rfl⟩ hother
  | ok inserted => exact answer ⟨waits, rfl⟩ hother

lemma takeOut (pick : Nat) (raw : UInt64) :
    Option.Rel (Together who a b) (p.takeOut other pick raw) (q.takeOut other pick raw) := by
  obtain ⟨waits, rfl⟩ := twin
  simp only [Host.takeOut]
  cases p.threads.removeRaw raw with
  | error e => exact .some (reject ⟨waits, rfl⟩ hother _ _)
  | ok removed =>
    dsimp only
    cases p.crew.bind fun crew => crew.step (.worker removed.1 (.join other)) with
    | none => exact .none
    | some stepped =>
      dsimp only
      cases stepped.2.outcome with
      | none => exact .some (proceed ⟨waits, rfl⟩ hother)
      | some outcome => exact .some (answer ⟨waits, rfl⟩ hother)

lemma collect (k : Nat) :
    Option.Rel (Together who a b) (p.collect other k) (q.collect other k) := by
  obtain ⟨waits, rfl⟩ := twin
  simp only [Host.collect]
  cases p.crew.bind fun crew => crew.step (.worker k .collect) with
  | none => exact .none
  | some stepped => exact .some (answer ⟨waits, rfl⟩ hother)

lemma launch (chance : Chance) (mode : SpawnMode) (k : Nat) :
    Option.Rel (Together who a b) (p.launch other chance mode k)
      (q.launch other chance mode k) := by
  obtain ⟨waits, rfl⟩ := twin
  simp only [Host.launch]
  cases p.crew with
  | none => exact .none
  | some crew =>
    dsimp only
    split
    · exact .none
    · split
      · exact .some (proceed ⟨waits, rfl⟩ hother)
      · exact .some (answer ⟨waits, rfl⟩ hother)
      · cases mode with
        | detached => exact .some (answer ⟨waits, rfl⟩ hother)
        | joinable => exact .some (proceed ⟨waits, rfl⟩ hother)

/-- So does a call of somebody else go on. -/
lemma continue? (chance : Chance) (c : Activity) :
    Option.Rel (Together who a b) (p.continue? other chance c) (q.continue? other chance c) := by
  cases c with
  | sending | receiving | receivingInto => exact twin.turn hother _ _ _
  | closing =>
    simp only [Host.continue?]
    exact twin.turn hother _ _ _
  | askingForData | askingWhetherClosed => exact twin.look hother _ _
  | launching mode k => exact twin.launch hother chance mode k
  | enrolling k => exact .some (twin.enroll hother k)
  | removing raw => exact twin.takeOut hother _ raw
  | joining k => exact twin.collect hother k

end

/-- As long as `who` does not go on, all steps do the same in both hosts. -/
theorem step (chance : Chance) {action : Action} (hresume : action ≠ .resume who) :
    Option.Rel (Together who a b) (p.step chance action) (q.step chance action) := by
  cases action with
  | call other c =>
    rw [Host.step, Host.step, twin.isFree]
    by_cases free : p.isFree other = true
    · have hother : other ≠ who := by
        rintro rfl
        exact absurd (lookup_of_free free) (by simp [twin.waits])
      rw [if_pos free, if_pos free]
      exact .some (twin.call hother chance c)
    · rw [if_neg free, if_neg free]
      exact .none
  | resume other =>
    have hother : other ≠ who := fun heq => hresume (heq ▸ rfl)
    have hlookup : q.busy.lookup other = p.busy.lookup other := by
      rw [twin.eq]
      exact lookup_retold_ne hother p.busy
    rw [Host.step, Host.step, hlookup]
    cases p.busy.lookup other with
    | none => exact .none
    | some c => exact twin.continue? hother chance c
  | begin k => exact twin.crewStep _
  | stop k =>
    rw [Host.step, Host.step, twin.isFree]
    by_cases free : p.isFree (.worker k) = true
    · rw [if_pos free, if_pos free]
      exact twin.crewStep _
    · rw [if_neg free, if_neg free]
      exact .none
  | leave k =>
    obtain ⟨waits, rfl⟩ := twin
    exact crewStep (p := { p with slots := p.slots.exit (.worker k) }) ⟨waits, rfl⟩ _

end Twin
end Strand.Host
