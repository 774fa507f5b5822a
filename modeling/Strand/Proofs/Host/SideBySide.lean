import Strand.Proofs.Host.Twin

/-! The two ways to receive are one. Set side by side, a host in which a thread receives and one in
which it receives into a place do the same at every step, whatever the others do in between: the
thread waits in both or goes on in both, takes the same value or none, and leaves the same host
behind. Only what it is told differs. -/
namespace Strand.Host

/-- What steps come to that are taken one after the other, if each of them is enabled. -/
def follow (p : Host) : List (Chance × Action) → Option (List Effect)
  | [] => some []
  | (chance, action) :: schedule =>
    (p.step chance action).bind fun e => (e.host.follow schedule).map (e :: ·)

/-- What a call to receive is told, and what it is told when it receives into a place where `out`
stands. -/
inductive Told (out : Int64) : Option Reply → Option Reply → Prop
  | value (v : Int64) : Told out (some (.code v)) (some (.tagged true (some v)))
  | nothing : Told out (some (.code 0)) (some (.tagged false (some out)))

/-- After a step the party is still about to receive from the same channel. -/
def BothWait (who : Party) (out : Int64) (e e' : Effect) : Prop :=
  ∃ n, Together who (.receiving n) (.receivingInto n out) e e'

/-- After a step the party has received, or has learned that there is nothing. -/
structure BothOver (out : Int64) (e e' : Effect) : Prop where
  host : e.host = e'.host
  told : Told out e.reply e'.reply

/-- What the same steps come to side by side. Once the party is done, nothing differs any more. -/
inductive SideBySide (who : Party) (out : Int64) : List Effect → List Effect → Prop
  | nil : SideBySide who out [] []
  | wait {e e' es es'} (wait : BothWait who out e e') (rest : SideBySide who out es es') :
    SideBySide who out (e :: es) (e' :: es')
  | ends {e e'} (ended : BothOver out e e') (es : List Effect) :
    SideBySide who out (e :: es) (e' :: es)

variable {p q : Host} {who : Party} {raw : UInt64} {n : Nat} {out : Int64} {chance : Chance}
  {action action' : Action} {schedule : List (Chance × Action)}

lemma filter_retold_self (who : Party) (b : Activity) (busy : List (Party × Activity)) :
    (retold who b busy).filter (fun entry => entry.1 ≠ who) =
      busy.filter fun entry => entry.1 ≠ who := by
  rw [filter_retold]
  exact retold_eq_self fun entry hmem => by simpa using (List.mem_filter.mp hmem).2

/-- The turn of the party itself, if it is not parked. -/
lemma Twin.receives (twin : Twin who (.receiving n) (.receivingInto n out) p q) (chance : Chance) :
    Option.Rel (fun e e' => BothWait who out e e' ∨ BothOver out e e')
      (p.step chance (.resume who)) (q.step chance (.resume who)) := by
  obtain ⟨waits, rfl⟩ := twin
  rw [step_resume waits, step_resume (lookup_retold_self waits)]
  simp only [Host.continue?, Host.turn]
  cases p.made[n]? with
  | none => exact .none
  | some s =>
    dsimp only
    split
    · exact .none
    · cases (s.receive who chance.pick).1.result with
      | none => exact .some (.inl ⟨n, ⟨waits, rfl⟩, rfl, rfl⟩)
      | some result =>
        refine .some (.inr ⟨?_, ?_⟩)
        · simp only [Host.answer, filter_retold_self]
        · cases result with
          | none => exact .nothing
          | some v => exact .value v

section
variable {α β γ δ : Type} {R : α → β → Prop} {S : γ → δ → Prop} {x : Option α} {y : Option β}

lemma rel_bind {f : α → Option γ} {g : β → Option δ} (first : Option.Rel R x y)
    (rest : ∀ a b, R a b → Option.Rel S (f a) (g b)) : Option.Rel S (x.bind f) (y.bind g) := by
  cases first with
  | none => exact .none
  | some h => exact rest _ _ h

lemma rel_map {f : α → γ} {g : β → δ} (first : Option.Rel R x y)
    (rest : ∀ a b, R a b → S (f a) (g b)) : Option.Rel S (x.map f) (y.map g) := by
  cases first with
  | none => exact .none
  | some h => exact .some (rest _ _ h)

end

/-- Steps that begin alike go on alike if all steps of twins do. -/
lemma follow_cons
    (first : Option.Rel (fun e e' => BothWait who out e e' ∨ BothOver out e e')
      (p.step chance action) (q.step chance action'))
    (rest : ∀ n p q, Twin who (.receiving n) (.receivingInto n out) p q →
      Option.Rel (SideBySide who out) (p.follow schedule) (q.follow schedule)) :
    Option.Rel (SideBySide who out) (p.follow ((chance, action) :: schedule))
      (q.follow ((chance, action') :: schedule)) := by
  refine rel_bind first fun e e' h => ?_
  rcases h with wait | ended
  · obtain ⟨n, together⟩ := wait
    exact rel_map (rest n _ _ together.host) fun es es' hrest => .wait ⟨n, together⟩ hrest
  · rw [← ended.host]
    cases e.host.follow schedule with
    | none => exact .none
    | some es => exact .some (.ends ended es)

/-- Twins stay side by side, whatever steps are taken. -/
theorem Twin.follow (twin : Twin who (.receiving n) (.receivingInto n out) p q)
    (schedule : List (Chance × Action)) :
    Option.Rel (SideBySide who out) (p.follow schedule) (q.follow schedule) := by
  induction schedule generalizing n p q with
  | nil => exact .some .nil
  | cons entry schedule ih =>
    obtain ⟨chance, action⟩ := entry
    refine follow_cons ?_ fun _ _ _ twin => ih twin
    by_cases hresume : action = .resume who
    · rw [hresume]
      exact twin.receives chance
    · have hstep := twin.step chance hresume
      generalize p.step chance action = x at hstep ⊢
      generalize q.step chance action = y at hstep ⊢
      cases hstep with
      | none => exact .none
      | some together => exact .some (.inl ⟨n, together⟩)

/-- Beginning to receive from the same channel in one way and in the other. -/
lemma twin_proceed (p : Host) (who : Party) (n : Nat) (out : Int64) (lines : List Log.Line) :
    Together who (.receiving n) (.receivingInto n out) (p.proceed who lines (.receiving n))
      (p.proceed who lines (.receivingInto n out)) := by
  refine ⟨⟨List.lookup_cons_self, ?_⟩, rfl, rfl⟩
  have hbusy : retold who (.receivingInto n out)
      ((who, .receiving n) :: p.busy.filter fun entry => entry.1 ≠ who) =
        (who, .receivingInto n out) :: p.busy.filter fun entry => entry.1 ≠ who := by
    rw [retold_cons_self,
      retold_eq_self fun entry hmem => by simpa using (List.mem_filter.mp hmem).2]
  exact congrArg (fun busy => { p with busy }) hbusy.symm

/-- How a call to receive stands to one that receives into a place. -/
structure ReceivesAlike (p : Host) (who : Party) : Prop where
  /-- Whatever the handle is and whatever steps follow, of the party itself and of all others: the
  same steps are enabled, the party waits on and is woken in the same cases, and what it is told
  says the same. -/
  alike : ∀ raw out chance schedule,
    Option.Rel (SideBySide who out)
      (p.follow ((chance, .call who (.receive raw)) :: schedule))
      (p.follow ((chance, .call who (.receiveTagged raw (some out))) :: schedule))
  /-- A handle that leads to a channel is where both begin to receive. -/
  live : ∀ raw n out chance, p.isFree who = true → p.channels.findRaw raw = .ok n →
    ∃ e e', p.step chance (.call who (.receive raw)) = some e ∧
      p.step chance (.call who (.receiveTagged raw (some out))) = some e' ∧
      Together who (.receiving n) (.receivingInto n out) e e'
  /-- With any other number both are over at once, and have changed nothing. -/
  dead : ∀ raw out chance, p.isFree who = true → (∀ n, p.channels.findRaw raw ≠ .ok n) →
    ∃ lines lines',
      p.step chance (.call who (.receive raw)) = some ⟨p, lines, some (.code 0)⟩ ∧
      p.step chance (.call who (.receiveTagged raw (some out))) =
        some ⟨p, lines', some (.tagged false (some out))⟩
  /-- Without a place the tagged call is over at once and has changed nothing, for all numbers. -/
  null : ∀ raw chance, p.isFree who = true →
    ∃ lines, p.step chance (.call who (.receiveTagged raw none)) =
      some ⟨p, lines, some (.tagged false none)⟩

section
variable (free : p.isFree who = true)
include free

lemma step_of_free (chance : Chance) (c : Call UInt64) :
    p.step chance (.call who c) = some (p.call who chance c) := if_pos free

lemma receives_live (found : p.channels.findRaw raw = .ok n) (out : Int64) (chance : Chance) :
    ∃ e e', p.step chance (.call who (.receive raw)) = some e ∧
      p.step chance (.call who (.receiveTagged raw (some out))) = some e' ∧
      Together who (.receiving n) (.receivingInto n out) e e' := by
  rw [step_of_free free, step_of_free free, call_found rfl found, call_found rfl found]
  exact ⟨_, _, rfl, rfl, twin_proceed p who n out []⟩

lemma receives_dead (missing : ∀ n, p.channels.findRaw raw ≠ .ok n) (out : Int64)
    (chance : Chance) : ∃ lines lines',
      p.step chance (.call who (.receive raw)) = some ⟨p, lines, some (.code 0)⟩ ∧
      p.step chance (.call who (.receiveTagged raw (some out))) =
        some ⟨p, lines', some (.tagged false (some out))⟩ := by
  have idle := lookup_of_free free
  obtain ⟨lines, hplain⟩ := call_missing (c := .receive raw) p who chance rfl missing
  obtain ⟨lines', htagged⟩ :=
    call_missing (c := .receiveTagged raw (some out)) p who chance rfl missing
  rw [step_of_free free, step_of_free free, hplain, htagged, answer_eq idle, answer_eq idle]
  exact ⟨lines, lines', rfl, rfl⟩

end

/-- In every host, reached by a run or not, and for every party. -/
theorem receives_alike (p : Host) (who : Party) : ReceivesAlike p who where
  alike raw out chance schedule := by
    refine follow_cons ?_ fun _ _ _ twin => twin.follow schedule
    by_cases free : p.isFree who = true
    · by_cases hfound : ∃ n, p.channels.findRaw raw = .ok n
      · obtain ⟨n, found⟩ := hfound
        obtain ⟨e, e', he, he', together⟩ := receives_live free found out chance
        rw [he, he']
        exact .some (.inl ⟨n, together⟩)
      · obtain ⟨lines, lines', he, he'⟩ :=
          receives_dead free (fun n hn => hfound ⟨n, hn⟩) out chance
        rw [he, he']
        exact .some (.inr ⟨rfl, .nothing⟩)
    · rw [step, step, if_neg free, if_neg free]
      exact .none
  live _ _ out chance free found := receives_live free found out chance
  dead _ out chance free missing := receives_dead free missing out chance
  null raw chance free := by
    rw [step_of_free free]
    exact ⟨_, congrArg some (answer_eq (lookup_of_free free))⟩

/-- A thread that is blocked and then woken by a zero. -/
example :
    let calm : Chance := ⟨0, none, 1024⟩
    let told (c : Call UInt64) : Option (List (Option Reply)) :=
      ((ofSource ⟨⟨[], []⟩, none⟩).follow
        [(calm, .call (.outside 0) (.newChannel 1)), (calm, .call (.outside 1) c),
          (calm, .resume (.outside 1)), (calm, .call (.outside 0) (.send 4294967296 0)),
          (calm, .resume (.outside 0)), (calm, .resume (.outside 1))]).map
        fun es => es.map Effect.reply
    told (.receive 4294967296) =
        some [some (.handle 4294967296), none, none, none, some .nothing, some (.code 0)] ∧
      told (.receiveTagged 4294967296 (some 7)) =
        some [some (.handle 4294967296), none, none, none, some .nothing,
          some (.tagged true (some 0))] :=
  ⟨rfl, rfl⟩

end Strand.Host
