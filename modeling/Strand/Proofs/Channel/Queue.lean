import Strand.Channel.Basic
import Strand.Proofs.Channel.Ring

/-! A ring does what a bounded queue does. Whatever is put in, as long as there is room, and taken
out, the two cursors stay on the row of slots, exactly the slots from the read cursor onwards hold
the buffered values, and the counts agree. So nothing that a ring does can fault: no slot is missed
or written over, no value is lost when it is taken, and no remainder is taken modulo zero. -/
namespace Strand.Ring
variable {α : Type}

/-- The two ways to make a ring; the second one may fail. -/
inductive Made (capacity : Nat) : Ring α → Prop
  | outright : Made capacity (ofCapacity capacity)
  | reserved {memory slotSize r} (granted : ofCapacity? memory slotSize capacity = .ok r) :
    Made capacity r

lemma Made.eq_ofCapacity {capacity : Nat} {r : Ring α} (made : Made capacity r) :
    r = ofCapacity capacity := by
  cases made with
  | outright => rfl
  | reserved granted => exact Ring.eq_ofCapacity granted

/-- What can be done to a ring. -/
inductive Op (α : Type)
  | push (value : α)
  | pop
  deriving DecidableEq, Repr

def Op.isPush : Op α → Bool
  | .push _ => true
  | .pop => false

/-- How many values are put in. -/
def pushes (ops : List (Op α)) : Nat := ops.countP Op.isPush

/-- Operations one after another, with what each of them took out. -/
def runAll {m : Type → Type} [Monad m] {σ : Type} (step : σ → Op α → m (Option α × σ)) (s : σ) :
    List (Op α) → m (List (Option α) × σ)
  | [] => pure ([], s)
  | op :: ops =>
    step s op >>= fun first =>
      runAll step first.2 ops >>= fun rest => pure (first.1 :: rest.1, rest.2)

section
variable {m : Type → Type} [Monad m] [LawfulMonad m] {σ : Type} {step : σ → Op α → m (Option α × σ)}
  {s s' s'' : σ} {op : Op α} {ops : List (Op α)} {answer : Option α} {answers : List (Option α)}

lemma runAll_cons (first : step s op = pure (answer, s'))
    (rest : runAll step s' ops = pure (answers, s'')) :
    runAll step s (op :: ops) = pure (answer :: answers, s'') := by
  rw [runAll, first, pure_bind, rest, pure_bind]

end

section
variable {σ : Type} {step : σ → Op α → Option (Option α × σ)} {s s' : σ} {op : Op α}
  {ops : List (Op α)} {answer : Option α}

lemma runAll_none (first : step s op = none) : runAll step s (op :: ops) = none := by
  rw [runAll, first]
  rfl

lemma runAll_cons_none (first : step s op = some (answer, s'))
    (rest : runAll step s' ops = none) : runAll step s (op :: ops) = none := by
  rw [runAll, first, Option.bind_eq_bind, Option.bind_some, rest]
  rfl

end

/-- One operation on a bounded queue, the values of which stand oldest first. There is no way to put
a value into a full queue. -/
def queue (capacity : Nat) (xs : List α) : Op α → Option (Option α × List α)
  | .push value => if xs.length < capacity then some (none, xs ++ [value]) else none
  | .pop => some (xs.head?, xs.tail)

/-- One operation on a ring, by a caller who puts nothing into a full one. -/
def play (r : Ring α) : Op α → Option (Option α × Ring α)
  | .push value => if r.isFull then none else some (none, r.push value)
  | .pop => some r.pop

/-- What must not happen in an operation on a ring. -/
inductive Fault
  | full
  /-- A cursor does not stand on a slot. -/
  | outOfRange
  /-- A value would be written over another one. -/
  | occupied
  /-- The slot to take a value from holds none. -/
  | vacant
  /-- A cursor would be taken modulo zero. -/
  | zeroModulus
  /-- A count would leave the numbers of 64 bits. -/
  | overflow
  deriving DecidableEq, Repr

/-- The cursor one slot further on. -/
def advance (r : Ring α) (cursor : Nat) : Except Fault Nat :=
  if r.capacity = 0 then .error .zeroModulus else .ok ((cursor + 1) % r.capacity)

def increment (count : Nat) : Except Fault Nat :=
  if count + 1 < 2 ^ 64 then .ok (count + 1) else .error .overflow

/-- One operation on a ring, part by part, which stops at the first fault. -/
def attempt (r : Ring α) : Op α → Except Fault (Option α × Ring α)
  | .push value =>
    if r.isFull then .error .full
    else
      match r.slots[r.write]? with
      | none => .error .outOfRange
      | some (some _) => .error .occupied
      | some none => do
        let write ← r.advance r.write
        let sent ← increment r.sent
        return (none,
          { r with
            slots := r.slots.setIfInBounds r.write (some value)
            write
            len := r.len + 1
            sent })
  | .pop =>
    if r.isEmpty then .ok (none, r)
    else
      match r.slots[r.read]? with
      | none => .error .outOfRange
      | some none => .error .vacant
      | some (some value) => do
        let read ← r.advance r.read
        let received ← increment r.received
        return (some value,
          { r with
            slots := r.slots.setIfInBounds r.read none
            read
            len := r.len - 1
            received })

/-- A ring that buffers these values, after so many were put in. -/
structure Kept (r : Ring α) (xs : List α) (sent : Nat) : Prop where
  holds : r.Holds xs
  sent_eq : r.sent = sent
  balance : r.sent = r.received + r.len

section
variable {r : Ring α} {xs : List α} {x value : α} {cursor sent count : Nat}

lemma advance_eq (hcapacity : 0 < r.capacity) :
    r.advance cursor = .ok ((cursor + 1) % r.capacity) :=
  if_neg (Nat.ne_of_gt hcapacity)

lemma increment_eq (few : count + 1 < 2 ^ 64) : increment count = .ok (count + 1) := if_pos few

namespace Holds

lemma isFull_iff (h : r.Holds xs) : r.isFull = true ↔ ¬xs.length < r.capacity := by
  have hle := h.length_le
  rw [isFull, beq_iff_eq, h.len_eq]
  omega

lemma isEmpty_iff (h : r.Holds xs) : r.isEmpty = true ↔ xs = [] := by
  rw [isEmpty, beq_iff_eq, h.len_eq, List.length_eq_zero_iff]

lemma pop_fst_eq (h : r.Holds xs) : r.pop.1 = xs.head? := by
  cases xs with
  | nil => rw [h.pop_nil, List.head?_nil]
  | cons x xs => rw [h.pop_fst, List.head?_cons]

/-- The slot that the next value goes into is vacant. -/
lemma write_slot (h : r.Holds xs) (room : xs.length < r.capacity) :
    r.slots[r.write]? = some none := by
  rw [h.write_eq, h.slot xs.length room, List.getElem?_eq_none (Nat.le_refl _)]

/-- The slot that the next value comes from holds the oldest one. -/
lemma slot_read (h : r.Holds (x :: xs)) : r.slots[r.read]? = some (some x) := by
  have hfirst := h.slot 0 h.capacity_pos
  rwa [Nat.add_zero, Nat.mod_eq_of_lt h.read_lt, List.getElem?_cons_zero] at hfirst

end Holds

namespace Kept

lemma ofCapacity {capacity : Nat} (one_le : 1 ≤ capacity) :
    (Ring.ofCapacity capacity : Ring α).Kept [] 0 :=
  ⟨holds_ofCapacity one_le, rfl, rfl⟩

lemma push (kept : r.Kept xs sent) (room : xs.length < r.capacity) (value : α) :
    (r.push value).Kept (xs ++ [value]) (sent + 1) where
  holds := kept.holds.push room value
  sent_eq := congrArg (· + 1) kept.sent_eq
  balance := congrArg (· + 1) kept.balance

lemma pop (kept : r.Kept xs sent) : r.pop.2.Kept xs.tail sent := by
  cases xs with
  | nil => rwa [kept.holds.pop_nil]
  | cons x xs =>
    have hlen := kept.holds.len_eq
    have hlen' := kept.holds.pop_snd.len_eq
    have hbalance := kept.balance
    refine ⟨kept.holds.pop_snd, (sent_pop r).trans kept.sent_eq, ?_⟩
    rw [sent_pop, kept.holds.received_pop, hlen', hbalance, hlen, List.length_cons]
    omega

lemma attempt_push (kept : r.Kept xs sent) (room : xs.length < r.capacity)
    (few : sent + 1 < 2 ^ 64) : r.attempt (.push value) = .ok (none, r.push value) := by
  have hfull : ¬r.isFull = true := fun hfull => kept.holds.isFull_iff.mp hfull room
  have hsent : increment r.sent = .ok (r.sent + 1) := increment_eq (by rwa [kept.sent_eq])
  simp only [attempt, if_neg hfull, kept.holds.write_slot room, advance_eq kept.holds.capacity_pos,
    hsent]
  rfl

lemma attempt_pop (kept : r.Kept xs sent) (few : sent < 2 ^ 64) : r.attempt .pop = .ok r.pop := by
  cases xs with
  | nil =>
    have hempty : r.isEmpty = true := kept.holds.isEmpty_iff.mpr rfl
    simp only [attempt, Ring.pop, if_pos hempty]
  | cons x xs =>
    have hempty : ¬r.isEmpty = true := by simp [kept.holds.isEmpty_cons]
    have hreceived : increment r.received = .ok (r.received + 1) := by
      have hlen := kept.holds.len_eq
      have hsent := kept.sent_eq
      have hbalance := kept.balance
      rw [List.length_cons] at hlen
      exact increment_eq (by omega)
    simp only [attempt, Ring.pop, if_neg hempty, kept.holds.slot_read,
      advance_eq kept.holds.capacity_pos, hreceived]
    rfl

/-- One operation: the ring refuses it when the queue does, or answers as the queue does. -/
theorem play_cases (kept : r.Kept xs sent) (op : Op α) :
    (r.play op = none ∧ queue r.capacity xs op = none) ∨
      ∃ answer r' ys, r.play op = some (answer, r') ∧
        queue r.capacity xs op = some (answer, ys) ∧ r'.capacity = r.capacity ∧
        r'.Kept ys (sent + pushes [op]) ∧
        (sent + pushes [op] < 2 ^ 64 → r.attempt op = .ok (answer, r')) := by
  cases op with
  | push value =>
    by_cases room : xs.length < r.capacity
    · have hfull : ¬r.isFull = true := fun hfull => kept.holds.isFull_iff.mp hfull room
      exact .inr ⟨none, r.push value, xs ++ [value], if_neg hfull, if_pos room,
        capacity_push r value, kept.push room value, kept.attempt_push room⟩
    · exact .inl ⟨if_pos (kept.holds.isFull_iff.mpr room), if_neg room⟩
  | pop =>
    refine .inr ⟨r.pop.1, r.pop.2, xs.tail, rfl, ?_, capacity_pop r, kept.pop, kept.attempt_pop⟩
    rw [kept.holds.pop_fst_eq]
    rfl

/-- The induction is on the operations; what carries it is the list of buffered values. -/
theorem runAll_cases (kept : r.Kept xs sent) (ops : List (Op α)) :
    (runAll play r ops = none ∧ runAll (queue r.capacity) xs ops = none) ∨
      ∃ answers r' ys, runAll play r ops = some (answers, r') ∧
        runAll (queue r.capacity) xs ops = some (answers, ys) ∧ r'.capacity = r.capacity ∧
        r'.Kept ys (sent + pushes ops) ∧
        (sent + pushes ops < 2 ^ 64 → runAll attempt r ops = .ok (answers, r')) := by
  induction ops generalizing r xs sent with
  | nil => exact .inr ⟨[], r, xs, rfl, rfl, rfl, kept, fun _ => rfl⟩
  | cons op ops ih =>
    have hpushes : pushes ([op] ++ ops) = pushes [op] + pushes ops := List.countP_append
    rw [List.singleton_append] at hpushes
    rcases kept.play_cases op with
      ⟨hplay, hqueue⟩ | ⟨answer, r', ys, hplay, hqueue, hcapacity, kept', hattempt⟩
    · exact .inl ⟨runAll_none hplay, runAll_none hqueue⟩
    · rcases ih kept' with
        ⟨hplays, hqueues⟩ | ⟨answers, r'', zs, hplays, hqueues, hcapacity', kept'', hattempts⟩
      · rw [hcapacity] at hqueues
        exact .inl ⟨runAll_cons_none hplay hplays, runAll_cons_none hqueue hqueues⟩
      · rw [hcapacity] at hqueues
        rw [Nat.add_assoc, ← hpushes] at kept'' hattempts
        exact .inr ⟨answer :: answers, r'', zs, runAll_cons hplay hplays,
          runAll_cons hqueue hqueues, hcapacity'.trans hcapacity, kept'', fun few =>
          runAll_cons (hattempt (by omega)) (hattempts few)⟩

end Kept

end

/-- The state of a ring that is in order. -/
structure InOrder (capacity : Nat) (r : Ring α) : Prop where
  capacity_eq : r.capacity = capacity
  /-- The cursors are not taken modulo zero. -/
  capacity_pos : 0 < r.capacity
  read_lt : r.read < capacity
  write_lt : r.write < capacity
  write_eq : r.write = (r.read + r.len) % capacity
  len_le : r.len ≤ capacity
  sent_eq : r.sent = r.received + r.len
  /-- Exactly the first `len` slots from the read cursor onwards hold a value. -/
  slot_iff : ∀ i < capacity,
    (∃ value, r.slots[(r.read + i) % capacity]? = some (some value)) ↔ i < r.len
  slot_eq : ∀ i < capacity, r.slots[(r.read + i) % capacity]? = some r.toList[i]?
  /-- A value that is put in is not written over another one. -/
  vacant : r.isFull = false → r.slots[r.write]? = some none
  /-- A value that is buffered can be taken out, and a receiver gets it. -/
  taken : r.isEmpty = false → ∃ value, r.pop.1 = some value ∧ ∀ closed rejected,
    Channel.receive? ⟨r, closed, rejected⟩ = some (some value, ⟨r.pop.2, closed, rejected⟩)

lemma Kept.inOrder {r : Ring α} {xs : List α} {sent : Nat} (kept : r.Kept xs sent) :
    InOrder r.capacity r where
  capacity_eq := rfl
  capacity_pos := kept.holds.capacity_pos
  read_lt := kept.holds.read_lt
  write_lt := kept.holds.write_lt
  write_eq := by rw [kept.holds.len_eq, ← kept.holds.write_eq]
  len_le := by
    rw [kept.holds.len_eq]
    exact kept.holds.length_le
  sent_eq := kept.balance
  slot_iff i hi := by
    rw [kept.holds.slot i hi, kept.holds.len_eq]
    constructor
    · rintro ⟨value, hvalue⟩
      exact (List.getElem?_eq_some_iff.mp (Option.some.inj hvalue)).1
    · exact fun hlt => ⟨_, congrArg some (List.getElem?_eq_getElem hlt)⟩
  slot_eq i hi := by rw [kept.holds.slot i hi, kept.holds.toList_eq]
  vacant room := by
    apply kept.holds.write_slot
    by_contra hfull
    rw [kept.holds.isFull_iff.mpr hfull] at room
    cases room
  taken nonempty := by
    cases xs with
    | nil =>
      rw [kept.holds.isEmpty_iff.mpr rfl] at nonempty
      cases nonempty
    | cons x xs =>
      refine ⟨x, kept.holds.pop_fst, fun closed rejected => ?_⟩
      simp only [Channel.receive?, nonempty, Bool.false_and, Bool.false_eq_true, if_false,
        kept.holds.pop_fst]

/-- What operations on a ring of a capacity come to. -/
structure RunsAsQueue (capacity : Nat) (ring : Ring α) (ops : List (Op α)) : Prop where
  /-- The ring takes what the bounded queue takes, gives what it gives, and holds what is in it. -/
  refines : (runAll play ring ops).map (fun run => (run.1, run.2.toList)) =
    runAll (queue capacity) [] ops
  inOrder : ∀ answers r, runAll play ring ops = some (answers, r) → InOrder capacity r
  sent_eq : ∀ answers r, runAll play ring ops = some (answers, r) → r.sent = pushes ops
  /-- Done part by part, the operations are the same and come to no fault. -/
  faultless : ∀ answers r, runAll play ring ops = some (answers, r) → pushes ops < 2 ^ 64 →
    runAll attempt ring ops = .ok (answers, r)

/-- From either way of making a ring, for any values put in and taken out in any order. -/
theorem runs_as_queue {capacity : Nat} (one_le : 1 ≤ capacity) {ring : Ring α}
    (made : Made capacity ring) (ops : List (Op α)) : RunsAsQueue capacity ring ops := by
  obtain rfl := made.eq_ofCapacity
  have kept : (ofCapacity capacity : Ring α).Kept [] 0 := .ofCapacity one_le
  rcases kept.runAll_cases ops with
    ⟨hplays, hqueues⟩ | ⟨answers, r, xs, hplays, hqueues, hcapacity, hkept, hattempts⟩
  · rw [capacity_ofCapacity] at hqueues
    refine ⟨by rw [hplays, hqueues]; rfl, ?_, ?_, ?_⟩ <;>
    · intro answers r hrun
      rw [hplays] at hrun
      cases hrun
  · rw [capacity_ofCapacity] at hqueues hcapacity
    rw [Nat.zero_add] at hkept hattempts
    refine ⟨?_, ?_, ?_, ?_⟩
    · rw [hplays, hqueues, Option.map_some, hkept.holds.toList_eq]
    all_goals
      intro answers' r' hrun
      rw [hplays] at hrun
      cases hrun
    · rw [← hcapacity]
      exact hkept.inOrder
    · exact hkept.sent_eq
    · exact hattempts

/-- A ring of two slots is filled, and filled again from its second slot around the end. -/
theorem filled_around_the_end : 1 ≤ 2 ∧ ∃ ring : Ring Nat, Made 2 ring ∧
    runAll play ring [.push 1, .push 2, .pop, .push 3, .push 4] = none ∧
    (runAll play ring [.push 1, .push 2, .pop, .push 3, .pop, .pop, .pop]).map Prod.fst =
      some [none, none, some 1, none, some 2, some 3, none] ∧
    RunsAsQueue 2 ring [.push 1, .push 2, .pop, .push 3, .pop, .pop, .pop] := by
  have made : Made 2 (⟨#[none, none], 0, 0, 0, 0, 0⟩ : Ring Nat) := @Made.reserved _ 2 1024 16 _ rfl
  exact ⟨by decide, _, made, rfl, rfl, runs_as_queue (by decide) made _⟩

end Strand.Ring
