import Strand.Proofs.Handle.Refinement

/-! The calls on a table as they write to it, one part after another. What a call has written stays
written when it fails later on. That a call which fails leaves its table as it was is therefore a
fact about the order of its checks and writes, and about what a sound table cannot be. -/
namespace Strand.Table
variable {α β : Type} {t t' : Table α} {h : Handle} {raw : UInt64} {e : HandleError}

/-- A call that writes to a table in place. -/
abbrev InPlace (α β : Type) := EStateM HandleError (Table α) β

namespace InPlace

def refuse (e : HandleError) : InPlace α β := throw e

def write (f : Table α → Table α) : InPlace α Unit := modify f

def writeSlot (index : UInt32) (slot : Slot α) : InPlace α Unit :=
  write fun t => { t with slots := t.slots.setIfInBounds index.toNat slot }

/-- The slot of a handle, if it is there and holds a value under this handle. -/
def liveSlot (h : Handle) : InPlace α (Slot α) := do
  match (← get).slots[h.index.toNat]? with
  | some slot =>
    if slot.generation = h.generation ∧ slot.value.isSome = true then return slot
    else refuse (.stale h.toRaw)
  | none => refuse (.invalid h.toRaw)

/-- Takes a vacant slot off the free list, or makes one. -/
def vacancy : InPlace α UInt32 := do
  let t ← get
  match t.free with
  | index :: free =>
    write fun t => { t with free }
    return index
  | [] =>
    if t.slots.size < maxSlots then
      write fun t => { t with slots := t.slots.push ⟨.first, none⟩ }
      return UInt32.ofNat t.slots.size
    else refuse .exhausted

def insert (value : α) : InPlace α Handle := do
  let index ← vacancy
  match (← get).slots[index.toNat]? with
  | some slot =>
    writeSlot index { slot with value := some value }
    write fun t => { t with occupied := t.occupied + 1 }
    return ⟨index, slot.generation⟩
  | none => refuse .exhausted

/-- Passes a slot on to its next generation, if it has one. -/
def recycle (index : UInt32) (generation : Generation) : InPlace α Unit :=
  match generation.next? with
  | some next => do
    writeSlot index ⟨next, none⟩
    write fun t => { t with free := index :: t.free }
  | none => pure ()

def remove (h : Handle) : InPlace α α := do
  let slot ← liveSlot h
  writeSlot h.index { slot with value := none }
  match slot.value with
  | some value =>
    recycle h.index slot.generation
    write fun t => { t with occupied := t.occupied - 1 }
    return value
  | none => refuse (.stale h.toRaw)

def inspect (h : Handle) : InPlace α α := do
  let slot ← liveSlot h
  match slot.value with
  | some value => return value
  | none => refuse (.stale h.toRaw)

def decoded (raw : UInt64) (act : Handle → InPlace α β) : InPlace α β :=
  match Handle.ofRaw raw with
  | .ok h => act h
  | .error e => refuse e

/-- What a call comes to, and the table that it leaves. -/
def settle (outcome : β → Outcome α) (act : InPlace α β) (t : Table α) : Outcome α × Table α :=
  match act.run t with
  | .ok b t => (outcome b, t)
  | .error e t => (.failed e, t)

end InPlace

/-- A look at a value through a function that may have effects of its own. -/
def inspectM {m : Type → Type} [Monad m] (t : Table α) (h : Handle) (f : α → m β) :
    m (Except HandleError β) :=
  match t.slots[h.index.toNat]? with
  | some ⟨generation, some value⟩ =>
    if generation = h.generation then Except.ok <$> f value
    else pure (.error (.stale h.toRaw))
  | some ⟨_, none⟩ => pure (.error (.stale h.toRaw))
  | none => pure (.error (.invalid h.toRaw))

/-- One call, in place. -/
def enact (t : Table α) : Op α → Outcome α × Table α
  | .insert value => InPlace.settle .issued (InPlace.insert value) t
  | .remove h => InPlace.settle .yielded (InPlace.remove h) t
  | .removeRaw raw => InPlace.settle .yielded (InPlace.decoded raw InPlace.remove) t
  | .inspect h => InPlace.settle .yielded (InPlace.inspect h) t
  | .findRaw raw => InPlace.settle .yielded (InPlace.decoded raw InPlace.inspect) t

namespace InPlace

@[simp] lemma refuse_run (e : HandleError) (t : Table α) :
    (refuse e : InPlace α β).run t = .error e t := rfl

@[simp] lemma write_run (f : Table α → Table α) (t : Table α) :
    (write f).run t = .ok () (f t) := rfl

@[simp] lemma writeSlot_run (index : UInt32) (slot : Slot α) (t : Table α) :
    (writeSlot index slot).run t =
      .ok () { t with slots := t.slots.setIfInBounds index.toNat slot } := rfl

lemma liveSlot_run (t : Table α) (h : Handle) : (liveSlot h).run t =
    match t.find h with
    | .ok value => .ok ⟨h.generation, some value⟩ t
    | .error e => .error e t := by
  simp only [liveSlot, find, EStateM.run_bind, EStateM.run_get]
  cases t.slots[h.index.toNat]? with
  | none => rfl
  | some slot =>
    obtain ⟨generation, value⟩ := slot
    cases value with
    | none => simp
    | some value =>
      by_cases hgeneration : generation = h.generation
      · simp [hgeneration]
      · simp [hgeneration]

lemma remove_run (t : Table α) (h : Handle) : (remove h).run t =
    match t.remove h with
    | .ok (value, t') => .ok value t'
    | .error e => .error e t := by
  simp only [remove, Table.remove, EStateM.run_bind, liveSlot_run]
  cases t.find h with
  | error e => rfl
  | ok value =>
    simp only [recycle, EStateM.run_bind, writeSlot_run]
    cases h.generation.next? with
    | none => rfl
    | some next => simp only [EStateM.run_bind, writeSlot_run, write_run, EStateM.run_pure,
        Array.setIfInBounds_setIfInBounds]

lemma inspect_run (t : Table α) (h : Handle) : (inspect h).run t =
    match t.find h with
    | .ok value => .ok value t
    | .error e => .error e t := by
  simp only [inspect, EStateM.run_bind, liveSlot_run]
  cases t.find h <;> rfl

lemma setIfInBounds_push_size (slots : Array (Slot α)) (old new : Slot α) :
    (slots.push old).setIfInBounds slots.size new = slots.push new := by grind

/-- The one write that comes before a check is that of the free list, which names slots that are. -/
lemma insert_run (sound : t.Sound) (value : α) : (insert value).run t =
    match t.insert value with
    | .ok (h, t') => .ok h t'
    | .error e => .error e t := by
  simp only [insert, vacancy, Table.insert, EStateM.run_bind, EStateM.run_get]
  cases hfree : t.free with
  | cons index free =>
    obtain ⟨generation, hslot⟩ := sound.vacant index (hfree ▸ List.mem_cons_self)
    simp only [EStateM.run_bind, EStateM.run_pure, write_run, writeSlot_run, hslot]
  | nil =>
    by_cases hroom : t.slots.size < maxSlots
    · have hindex : (UInt32.ofNat t.slots.size).toNat = t.slots.size :=
        UInt32.toNat_ofNat_of_lt' hroom
      simp only [if_pos hroom, EStateM.run_bind, EStateM.run_pure, write_run, writeSlot_run, hindex,
        Array.getElem?_push_size, setIfInBounds_push_size]
      rw [hfree]
    · simp only [if_neg hroom, refuse_run]

end InPlace

/-- A call in place does what the call does. -/
theorem enact_eq_perform (sound : t.Sound) (op : Op α) : t.enact op = t.perform op := by
  cases op with
  | insert value =>
    simp only [enact, perform, InPlace.settle, InPlace.insert_run sound]
    cases t.insert value <;> rfl
  | remove h =>
    simp only [enact, perform, InPlace.settle, InPlace.remove_run]
    cases t.remove h <;> rfl
  | inspect h =>
    simp only [enact, perform, InPlace.settle, InPlace.inspect_run, Table.inspect]
    cases t.find h <;> rfl
  | removeRaw raw =>
    simp only [enact, perform, InPlace.settle, InPlace.decoded, removeRaw]
    cases Handle.ofRaw raw with
    | error e => rfl
    | ok h =>
      simp only [InPlace.remove_run]
      cases t.remove h <;> rfl
  | findRaw raw =>
    simp only [enact, perform, InPlace.settle, InPlace.decoded, findRaw]
    cases Handle.ofRaw raw with
    | error e => rfl
    | ok h =>
      simp only [InPlace.inspect_run]
      cases t.find h <;> rfl

/-- A call that fails has written nothing. -/
lemma enact_of_failed (sound : t.Sound) {op : Op α} (failed : (t.enact op).1 = .failed e) :
    (t.enact op).2 = t := by
  rw [enact_eq_perform sound] at failed ⊢
  rcases perform_cases sound op with
    ⟨h, v, hissued, -⟩ | ⟨h, v, -, hremoved, -⟩ | ⟨-, -, hsame⟩
  · rw [failed] at hissued
    cases op <;> cases hissued
  · rw [failed] at hremoved
    cases op <;> cases hremoved
  · exact hsame

/-- The function is given the value that the handle reaches, if any. -/
lemma inspectM_eq {m : Type → Type} [Monad m] (t : Table α) (h : Handle) (f : α → m β) :
    t.inspectM h f =
      match t.find h with
      | .ok value => Except.ok <$> f value
      | .error e => pure (.error e) := by
  unfold inspectM find
  cases t.slots[h.index.toNat]? with
  | none => rfl
  | some slot =>
    obtain ⟨generation, value⟩ := slot
    cases value with
    | none => rfl
    | some value =>
      by_cases hgeneration : generation = h.generation
      · simp only [if_pos hgeneration]
      · simp only [if_neg hgeneration]

end Strand.Table
