import Strand.Proofs.Handle.Growth

/-! Storing a value and taking it out again, over and over. While no other slot is free, all these
values come to lie in one slot, under one generation after the other, until the last generation
retires the slot; then a new slot is made, and goes through its generations in turn. -/
namespace Strand.Table
variable {α : Type} {t t' : Table α} {h : Handle} {v : α} {index generation m n : Nat}
  {values : Nat → α} {done : List (Handle × α)}

/-- Stores `values 0`, `values 1` and so on up to `n` values, and takes each out again before the
next. For each value there is the handle that it got, and what came out under this handle. -/
def rounds (t : Table α) (values : Nat → α) : Nat → Except HandleError (List (Handle × α) × Table α)
  | 0 => .ok ([], t)
  | n + 1 =>
    match t.rounds values n with
    | .error e => .error e
    | .ok (done, t) =>
      match t.insert (values n) with
      | .error e => .error e
      | .ok (h, t) =>
        match t.remove h with
        | .error e => .error e
        | .ok (v, t) => .ok (done ++ [(h, v)], t)

/-- With the same value every time, rounds are a cycle. -/
lemma cycle_eq (t : Table α) (v : α) (n : Nat) : t.cycle v n =
    (t.rounds (fun _ => v) n).map fun (done, t) => (done.getLast?.map Prod.fst, t) := by
  induction n with
  | zero => rfl
  | succ n ih =>
    rw [cycle, rounds, ih]
    cases t.rounds (fun _ => v) n with
    | error e => rfl
    | ok result =>
      simp only [Except.map]
      cases result.2.insert v with
      | error e => rfl
      | ok inserted =>
        simp only
        cases inserted.2.remove inserted.1 with
        | error e => rfl
        | ok removed => simp

/-- The place that the next value will get, if no slot but this one is free. -/
inductive Awaits (t : Table α) (index generation : Nat) : Prop
  | new (nothing_free : t.free = []) (size_eq : t.slots.size = index) (first : generation = 1)
  | used {h : Handle} (only_free : t.free = [h.index])
      (vacant : t.slots[h.index.toNat]? = some ⟨h.generation, none⟩)
      (size_eq : t.slots.size = index + 1) (index_eq : h.index.toNat = index)
      (generation_eq : h.generation.val.toNat = generation)

namespace Awaits

/-- There a value is put, and then no slot is free. -/
lemma exists_insert (awaits : t.Awaits index generation) (sound : t.Sound)
    (room : index < 4294967296) (v : α) : ∃ h t', t.insert v = .ok (h, t') ∧ Inserted t v h t' ∧
      h.index.toNat = index ∧ h.generation.val.toNat = generation ∧
      t'.free = [] ∧ t'.slots.size = index + 1 := by
  cases hstep : t.insert v with
  | error e =>
    obtain ⟨-, hfree, hsize⟩ := (insert_eq_error_iff sound).mp hstep
    rw [maxSlots] at hsize
    cases awaits with
    | new _ size_eq => omega
    | used only_free => simp [hfree] at only_free
  | ok result =>
    obtain ⟨h, t'⟩ := result
    have step : Inserted t v h t' := insert_cases sound hstep
    refine ⟨h, t', rfl, step, ?_⟩
    cases awaits with
    | new nothing_free size_eq first =>
      cases step with
      | fills freed => simp [nothing_free] at freed
      | makes _ _ index_eq hfirst =>
        rw [hfirst, Generation.toNat_first, Array.size_push, size_eq]
        exact ⟨index_eq.trans size_eq, first.symm, rfl, rfl⟩
    | @used k only_free vacant size_eq index_eq generation_eq =>
      cases step with
      | fills freed hvacant =>
        obtain ⟨hindex, rfl⟩ := List.cons.inj (only_free.symm.trans freed)
        rw [← hindex, vacant, Option.some.injEq, Slot.mk.injEq] at hvacant
        rw [← hindex, ← hvacant.1, Array.size_setIfInBounds]
        exact ⟨index_eq, generation_eq, rfl, size_eq⟩
      | makes nothing_free => simp [nothing_free] at only_free

end Awaits

/-- A value that was taken out leaves its slot to the next one, under the next generation, or leaves
the next one to a new slot. -/
lemma Removed.awaits (step : Removed t h v t') (free : t.free = [])
    (size_eq : t.slots.size = h.index.toNat + 1) :
    (h.generation.val.toNat < 4294967295 ∧
        t'.Awaits h.index.toNat (h.generation.val.toNat + 1)) ∨
      h.generation.val.toNat = 4294967295 ∧ t'.Awaits (h.index.toNat + 1) 1 := by
  cases step with
  | @recycles next live going_on =>
    have hnext := Generation.toNat_next going_on
    have hbound := next.toNat_lt
    refine .inl ⟨by omega, .used (h := ⟨h.index, next⟩) ?_ (getElem?_set_self live _) ?_ rfl hnext⟩
    · rw [free]
    · rw [Array.size_setIfInBounds, size_eq]
  | retires live last =>
    refine .inr ⟨Generation.next?_eq_none_iff.mp last, .new free ?_ rfl⟩
    rw [Array.size_setIfInBounds, size_eq]

/-- What a table has come to after `n` rounds. -/
structure Cycled (t : Table α) (values : Nat → α) (n : Nat) (done : List (Handle × α))
    (t' : Table α) : Prop where
  length_eq : done.length = n
  /-- Each value goes through the generations of one slot after the other, and comes out again. -/
  issued : ∀ k < n, ∃ h, done[k]? = some (h, values k) ∧
    h.index.toNat = t.slots.size + k / 4294967295 ∧
    h.generation.val.toNat = k % 4294967295 + 1
  size_eq : t'.size = t.size
  findRaw_iff : ∀ raw v, t'.findRaw raw = .ok v ↔ t.findRaw raw = .ok v

namespace Cycled

lemma zero (t : Table α) (values : Nat → α) : Cycled t values 0 [] t :=
  ⟨rfl, fun k hk => absurd hk (Nat.not_lt_zero k), rfl, fun _ _ => Iff.rfl⟩

lemma snoc {t₁ t₂ : Table α} (cycled : Cycled t values n done t')
    (inserted : Inserted t' (values n) h t₁) (removed : Removed t₁ h (values n) t₂)
    (index_eq : h.index.toNat = t.slots.size + n / 4294967295)
    (generation_eq : h.generation.val.toNat = n % 4294967295 + 1) :
    Cycled t values (n + 1) (done ++ [(h, values n)]) t₂ where
  length_eq := by rw [List.length_append, List.length_singleton, cycled.length_eq]
  issued k hk := by
    rcases Nat.lt_succ_iff_lt_or_eq.mp hk with hlt | rfl
    · rw [List.getElem?_append_left (by rw [cycled.length_eq]; exact hlt)]
      exact cycled.issued k hlt
    · refine ⟨h, ?_, index_eq, generation_eq⟩
      rw [← cycled.length_eq, List.getElem?_concat_length]
  size_eq := by
    have hsize : t₁.size = t'.size + 1 := by cases inserted <;> rfl
    have hremoved : t₂.size = t₁.size - 1 := removed.occupied_eq
    rw [hremoved, hsize, Nat.add_sub_cancel, cycled.size_eq]
  findRaw_iff raw v := by
    have hnew : t'.findRaw h.toRaw ≠ .ok v := by
      rw [findRaw_toRaw]
      exact inserted.find_ne_ok rfl v
    rw [removed.findRaw_iff, inserted.findRaw_iff, ← cycled.findRaw_iff]
    constructor
    · rintro ⟨hold | ⟨hraw, -⟩, hne⟩
      · exact hold
      · exact absurd hraw hne
    · intro hold
      exact ⟨.inl hold, fun hraw => hnew (hraw ▸ hold)⟩

end Cycled

/-- One more round goes on from the place that is awaited. -/
lemma exists_round (sound : t.Sound) {k : Nat}
    (awaits : t.Awaits (m + k / 4294967295) (k % 4294967295 + 1))
    (room : m + k / 4294967295 < 4294967296) (v : α) :
    ∃ h t₁ t₂, t.insert v = .ok (h, t₁) ∧ t₁.remove h = .ok (v, t₂) ∧ Inserted t v h t₁ ∧
      Removed t₁ h v t₂ ∧ h.index.toNat = m + k / 4294967295 ∧
      h.generation.val.toNat = k % 4294967295 + 1 ∧
      t₂.Awaits (m + (k + 1) / 4294967295) ((k + 1) % 4294967295 + 1) := by
  obtain ⟨h, t₁, hinsert, inserted, hindex, hgeneration, hfree, hsize⟩ :=
    awaits.exists_insert sound room v
  obtain ⟨t₂, hremove⟩ := exists_remove (find_eq_ok_iff.mpr inserted.slot_self)
  have removed : Removed t₁ h v t₂ := remove_cases hremove
  refine ⟨h, t₁, t₂, hinsert, hremove, inserted, removed, hindex, hgeneration, ?_⟩
  rcases removed.awaits hfree (by rw [hsize, hindex]) with ⟨hlt, hnext⟩ | ⟨hlast, hnext⟩
  · have hslot : m + (k + 1) / 4294967295 = h.index.toNat := by omega
    have hgen : (k + 1) % 4294967295 + 1 = h.generation.val.toNat + 1 := by omega
    rwa [hslot, hgen]
  · have hslot : m + (k + 1) / 4294967295 = h.index.toNat + 1 := by omega
    have hgen : (k + 1) % 4294967295 + 1 = 1 := by omega
    rwa [hslot, hgen]

/-- The induction is on the rounds; what carries it is the place that the next value will get. -/
lemma exists_rounds (sound : t.Sound) (free : t.free = []) (values : Nat → α) (n : Nat)
    (room : ∀ k < n, t.slots.size + k / 4294967295 < 4294967296) :
    ∃ done t', t.rounds values n = .ok (done, t') ∧ Cycled t values n done t' ∧ t'.Sound ∧
      t'.Awaits (t.slots.size + n / 4294967295) (n % 4294967295 + 1) := by
  induction n with
  | zero => exact ⟨[], t, rfl, .zero t values, sound, .new free rfl rfl⟩
  | succ n ih =>
    obtain ⟨done, t', hrounds, cycled, sound', awaits⟩ :=
      ih fun k hk => room k (Nat.lt_succ_of_lt hk)
    obtain ⟨h, t₁, t₂, hinsert, hremove, inserted, removed, hindex, hgeneration, awaits'⟩ :=
      exists_round sound' awaits (room n (Nat.lt_succ_self n)) (values n)
    refine ⟨done ++ [(h, values n)], t₂, ?_, cycled.snoc inserted removed hindex hgeneration,
      removed.sound (inserted.sound sound'), awaits'⟩
    simp only [rounds, hrounds, hinsert, hremove]

/-- From any table without a free slot, `n` rounds go through the generations of one new slot after
the other, and leave everything else as it was. -/
theorem rounds_walk_generations (ops : List (Op α))
    (free : ((empty : Table α).performAll ops).2.free = []) (values : Nat → α) (n : Nat)
    (one_le : 1 ≤ n)
    (room : ((empty : Table α).performAll ops).2.slots.size + (n - 1) / 4294967295 < 4294967296) :
    ∃ done t', ((empty : Table α).performAll ops).2.rounds values n = .ok (done, t') ∧
      Cycled ((empty : Table α).performAll ops).2 values n done t' ∧
      ∀ v, values = (fun _ => v) → ((empty : Table α).performAll ops).2.cycle v n =
        .ok (done.getLast?.map Prod.fst, t') := by
  have sound := (Recorded.empty.performAll (α := α) ops).tracks.sound
  generalize ((empty : Table α).performAll ops).2 = t at *
  have hroom : ∀ k < n, t.slots.size + k / 4294967295 < 4294967296 := by
    intro k hk
    have hle : k / 4294967295 ≤ (n - 1) / 4294967295 := Nat.div_le_div_right (by omega)
    omega
  obtain ⟨done, t', hrounds, cycled, -⟩ := exists_rounds sound free values n hroom
  refine ⟨done, t', hrounds, cycled, ?_⟩
  rintro v rfl
  rw [cycle_eq, hrounds]
  rfl

/-- One value stays where it is, while the second slot is used up and the third one is opened. -/
theorem third_slot_opened : ((empty : Table Nat).performAll [.insert 7]).2.free = [] ∧
    1 ≤ 4294967296 ∧
    ((empty : Table Nat).performAll [.insert 7]).2.slots.size + (4294967296 - 1) / 4294967295 <
      4294967296 ∧
    ∃ done t' h, ((empty : Table Nat).performAll [.insert 7]).2.rounds id 4294967296 =
        .ok (done, t') ∧
      done[4294967295]? = some (h, 4294967295) ∧ h.index.toNat = 2 ∧
      h.generation.val.toNat = 1 ∧ t'.findRaw 4294967296 = .ok 7 ∧ t'.size = 1 := by
  have room : ((empty : Table Nat).performAll [.insert 7]).2.slots.size +
      (4294967296 - 1) / 4294967295 < 4294967296 := by decide
  refine ⟨rfl, by decide, room, ?_⟩
  obtain ⟨done, t', hrounds, cycled, -⟩ :=
    rounds_walk_generations [.insert 7] rfl id 4294967296 (by decide) room
  obtain ⟨h, hlast, hindex, hgeneration⟩ := cycled.issued 4294967295 (by decide)
  exact ⟨done, t', h, hrounds, hlast, hindex, hgeneration,
    (cycled.findRaw_iff 4294967296 7).mpr rfl, cycled.size_eq⟩

end Strand.Table
