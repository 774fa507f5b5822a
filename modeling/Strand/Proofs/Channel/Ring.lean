import Mathlib.Data.List.Basic
import Mathlib.Data.Nat.ModEq
import Strand.Channel.Ring

/-! The row of slots refines a list. `Holds` says that the slots from the read cursor onwards,
around the end, are a given list of values and that every other slot is vacant. Putting in appends
to that list, taking out drops its head, and no more than this is needed of the two cursors
elsewhere. -/
namespace Strand.Ring
variable {α : Type}

/-- The ring buffers exactly these values, oldest first, and no slot holds anything else. -/
structure Holds (r : Ring α) (xs : List α) : Prop where
  read_lt : r.read < r.capacity
  len_eq : r.len = xs.length
  length_le : xs.length ≤ r.capacity
  write_eq : r.write = (r.read + xs.length) % r.capacity
  slot : ∀ i < r.capacity, r.slots[(r.read + i) % r.capacity]? = some xs[i]?

/-- Fewer steps than one whole round lead to different slots. -/
lemma step_injective {n a i j : Nat} (hi : i < n) (hj : j < n) (h : (a + i) % n = (a + j) % n) :
    i = j :=
  (Nat.ModEq.add_left_cancel' a h).eq_of_lt_of_lt hi hj

lemma filterMap_getElem?_range (xs : List α) :
    (List.range xs.length).filterMap (fun i => xs[i]?) = xs := by
  induction xs with
  | nil => rfl
  | cons x xs ih =>
    rw [List.length_cons, List.range_succ_eq_map, List.filterMap_cons, List.filterMap_map]
    exact congrArg (x :: ·) ih

@[simp] lemma sent_pop (r : Ring α) : r.pop.2.sent = r.sent := by
  unfold pop
  split <;> rfl

theorem holds_ofCapacity {n : Nat} (hn : 0 < n) : (ofCapacity n : Ring α).Holds [] where
  read_lt := by rw [capacity_ofCapacity]; exact hn
  len_eq := rfl
  length_le := Nat.zero_le _
  write_eq := by simp [ofCapacity]
  slot i hi := by
    have hm : i % n < n := Nat.mod_lt _ hn
    simp [ofCapacity, capacity, hm]

namespace Holds
variable {r : Ring α} {x : α} {xs : List α}

lemma capacity_pos (h : r.Holds xs) : 0 < r.capacity := Nat.zero_lt_of_lt h.read_lt

lemma write_lt (h : r.Holds xs) : r.write < r.capacity := by
  rw [h.write_eq]
  exact Nat.mod_lt _ h.capacity_pos

/-- The list is the one that `toList` reads off the slots, so there is only one. -/
theorem toList_eq (h : r.Holds xs) : r.toList = xs := by
  have hslot : ∀ i ∈ List.range xs.length,
      r.slots[(r.read + i) % r.capacity]?.join = xs[i]? := by
    intro i hi
    have hlt : i < xs.length := List.mem_range.mp hi
    rw [h.slot i (hlt.trans_le h.length_le)]
    rfl
  rw [toList, h.len_eq, List.filterMap_congr hslot]
  exact filterMap_getElem?_range xs

lemma read_slot (h : r.Holds (x :: xs)) : r.slots[r.read]?.join = some x := by
  have h0 := h.slot 0 h.capacity_pos
  rw [Nat.add_zero, Nat.mod_eq_of_lt h.read_lt] at h0
  rw [h0]
  rfl

/-- The write cursor stands right behind the buffered values, on a slot that is vacant. -/
theorem push (h : r.Holds xs) (hroom : xs.length < r.capacity) (value : α) :
    (r.push value).Holds (xs ++ [value]) where
  read_lt := by rw [capacity_push]; exact h.read_lt
  len_eq := by simp [Ring.push, h.len_eq]
  length_le := by rw [capacity_push, List.length_append]; exact hroom
  write_eq := by
    rw [capacity_push, List.length_append, List.length_singleton]
    change (r.write + 1) % r.capacity = _
    rw [h.write_eq, Nat.mod_add_mod, Nat.add_assoc]
    rfl
  slot i hi := by
    rw [capacity_push] at hi ⊢
    change (r.slots.setIfInBounds r.write (some value))[(r.read + i) % r.capacity]? = _
    have hw : r.write < r.slots.size := h.write_lt
    by_cases hsame : i = xs.length
    · rw [hsame, ← h.write_eq, Array.getElem?_setIfInBounds_self_of_lt hw]
      simp
    · have hne : r.write ≠ (r.read + i) % r.capacity := by
        rw [h.write_eq]
        exact fun he => hsame (step_injective hroom hi he).symm
      rw [Array.getElem?_setIfInBounds_ne hne, h.slot i hi]
      congr 1
      rcases Nat.lt_or_gt_of_ne hsame with hlt | hgt
      · rw [List.getElem?_append_left hlt]
      · rw [List.getElem?_eq_none (by omega), List.getElem?_eq_none (by simp; omega)]

lemma pop_nil (h : r.Holds []) : r.pop = (none, r) := by
  have he : r.isEmpty = true := by simp [isEmpty, h.len_eq]
  rw [Ring.pop, if_pos he]

lemma isEmpty_cons (h : r.Holds (x :: xs)) : r.isEmpty = false := by
  simp [isEmpty, h.len_eq]

lemma pop_fst (h : r.Holds (x :: xs)) : r.pop.1 = some x := by
  rw [Ring.pop, if_neg (by simp [h.isEmpty_cons])]
  exact h.read_slot

lemma received_pop (h : r.Holds (x :: xs)) : r.pop.2.received = r.received + 1 := by
  rw [Ring.pop, if_neg (by simp [h.isEmpty_cons])]

/-- The value at the read cursor leaves, its slot is vacant, and the others stand one step nearer.
-/
theorem pop_snd (h : r.Holds (x :: xs)) : r.pop.2.Holds xs := by
  have hc := h.capacity_pos
  have hpop : r.pop.2 = { r with
      slots := r.slots.setIfInBounds r.read none
      read := (r.read + 1) % r.capacity
      len := r.len - 1
      received := r.received + 1 } := by
    rw [Ring.pop, if_neg (by simp [h.isEmpty_cons])]
  have hcap : r.pop.2.capacity = r.capacity := capacity_pop r
  have hread : r.pop.2.read = (r.read + 1) % r.capacity := by rw [hpop]
  constructor
  · rw [hcap, hread]
    exact Nat.mod_lt _ hc
  · rw [hpop]
    simp [h.len_eq]
  · have := h.length_le
    rw [hcap]
    simp only [List.length_cons] at this
    omega
  · rw [hcap, hread, Nat.mod_add_mod, hpop]
    change r.write = _
    rw [h.write_eq, List.length_cons, Nat.add_assoc, Nat.add_comm 1]
  · intro i hi
    rw [hcap] at hi
    rw [hcap, hread, Nat.mod_add_mod, Nat.add_assoc, Nat.add_comm 1, hpop]
    change (r.slots.setIfInBounds r.read none)[(r.read + (i + 1)) % r.capacity]? = _
    by_cases hlast : i + 1 < r.capacity
    · have hne : r.read ≠ (r.read + (i + 1)) % r.capacity := by
        intro he
        have h0 : (r.read + 0) % r.capacity = (r.read + (i + 1)) % r.capacity := by
          rw [← he, Nat.add_zero, Nat.mod_eq_of_lt h.read_lt]
        have := step_injective hc hlast h0
        omega
      rw [Array.getElem?_setIfInBounds_ne hne, h.slot (i + 1) hlast, List.getElem?_cons_succ]
    · -- One whole round leads back to the slot that was vacated.
      have hi' : i + 1 = r.capacity := by omega
      have hlen := h.length_le
      simp only [List.length_cons] at hlen
      rw [hi', Nat.add_mod_right, Nat.mod_eq_of_lt h.read_lt,
        Array.getElem?_setIfInBounds_self_of_lt h.read_lt, List.getElem?_eq_none (by omega)]

end Holds
end Strand.Ring
