import Mathlib.Algebra.GroupWithZero.Nat
import Mathlib.Data.List.Perm.Subperm
import Mathlib.Data.List.Range
import Mathlib.Tactic.Lemma

/-! Counting in lists, by the positions of what is counted and when one element is replaced, and
lists that get one more element at the end. -/
namespace Strand
variable {β : Type} {l : List β} {p : β → Bool} {i : Nat} {a b : β}

/-- The positions in a list of what satisfies `p`. -/
def positions (p : β → Bool) (l : List β) : List Nat :=
  (List.range l.length).filter fun k => l[k]?.any p

lemma mem_positions {k : Nat} : k ∈ positions p l ↔ ∃ x, l[k]? = some x ∧ p x = true := by
  simp only [positions, List.mem_filter, List.mem_range, Option.any_eq_true]
  constructor
  · exact fun h => h.2
  · rintro ⟨x, hx, hp⟩
    exact ⟨(List.getElem?_eq_some_iff.mp hx).1, x, hx, hp⟩

lemma nodup_positions : (positions p l).Nodup := List.nodup_range.filter _

lemma length_positions : (positions p l).length = l.countP p := by
  induction l with
  | nil => rfl
  | cons x l ih =>
    have hrest : ((List.range l.length).map Nat.succ).filter (fun k => (x :: l)[k]?.any p) =
        (positions p l).map Nat.succ := by
      rw [List.filter_map]
      rfl
    rw [positions, List.length_cons, List.range_succ_eq_map, List.filter_cons, hrest,
      List.countP_cons]
    cases hx : p x <;> simp [hx, ih]

/-- Different positions of what satisfies `p` are no more than there are in all. -/
lemma length_le_countP {ks : List Nat} (hnodup : ks.Nodup)
    (h : ∀ k ∈ ks, ∃ x, l[k]? = some x ∧ p x = true) : ks.length ≤ l.countP p := by
  rw [← length_positions]
  exact (hnodup.subperm fun k hk => mem_positions.mpr (h k hk)).length_le

lemma countP_le_length {ks : List Nat}
    (h : ∀ (k : Nat) (x : β), l[k]? = some x → p x = true → k ∈ ks) : l.countP p ≤ ks.length := by
  rw [← length_positions]
  refine (nodup_positions.subperm fun k hk => ?_).length_le
  obtain ⟨x, hx, hp⟩ := mem_positions.mp hk
  exact h k x hx hp

lemma countP_set_add (h : l[i]? = some a) (b : β) :
    (l.set i b).countP p + (if p a then 1 else 0) = l.countP p + (if p b then 1 else 0) := by
  obtain ⟨hlt, rfl⟩ := List.getElem?_eq_some_iff.mp h
  obtain ⟨l₁, l₂, hl, -, hset⟩ :
      ∃ l₁ l₂, l = l₁ ++ l[i] :: l₂ ∧ l₁.length = i ∧ l.set i b = l₁ ++ b :: l₂ :=
    List.exists_of_set hlt
  rw [hset]
  conv => rhs; rw [hl]
  simp only [List.countP_append, List.countP_cons]
  omega

lemma countP_set_toNat (h : l[i]? = some a) (b : β) :
    (l.set i b).countP p + (p a).toNat = l.countP p + (p b).toNat := by
  have hset := countP_set_add (p := p) h b
  cases ha : p a <;> cases hb : p b <;> simpa [ha, hb] using hset

lemma countP_concat : (l ++ [a]).countP p = l.countP p + (p a).toNat := by
  rw [List.countP_append, List.countP_singleton]
  cases p a <;> rfl

lemma countP_eq_add {q r : β → Bool} (h : ∀ x ∈ l, (r x).toNat = (p x).toNat + (q x).toNat) :
    l.countP r = l.countP p + l.countP q := by
  induction l with
  | nil => simp
  | cons x l ih =>
    have hx := h x List.mem_cons_self
    have hl := ih fun y hy => h y (List.mem_cons_of_mem _ hy)
    rw [List.countP_cons, List.countP_cons, List.countP_cons]
    cases hp : p x <;> cases hq : q x <;> cases hr : r x <;> simp [hp, hq, hr] at hx ⊢ <;> omega

lemma set_eq_self (h : l[i]? = some a) : l.set i a = l := by
  obtain ⟨hlt, rfl⟩ := List.getElem?_eq_some_iff.mp h
  exact List.set_getElem_self hlt

lemma foldr_set_add (h : l[i]? = some a) (b : β) (f : β → Nat) :
    (l.set i b).foldr (fun x n => f x + n) 0 + f a = l.foldr (fun x n => f x + n) 0 + f b := by
  induction l generalizing i with
  | nil => simp at h
  | cons x l ih =>
    cases i with
    | zero =>
      cases h
      rw [List.set_cons_zero, List.foldr_cons, List.foldr_cons]
      omega
    | succ i =>
      have hrest := ih h
      rw [List.set_cons_succ, List.foldr_cons, List.foldr_cons]
      omega

lemma foldr_add_eq_sum (f : β → Nat) (l : List β) :
    l.foldr (fun x n => f x + n) 0 = (l.map f).sum := by
  rw [List.sum, List.foldr_map]

lemma filterMap_concat {γ : Type} (f : β → Option γ) (l : List β) (a : β) :
    (l ++ [a]).filterMap f = l.filterMap f ++ (f a).toList := by
  rw [List.filterMap_append]
  cases h : f a <;> simp [h]

/-- A list is put together from its parts for all values below a bound that `f` takes on it. -/
lemma flatMap_filter_perm {f : β → Nat} {n : Nat} (h : ∀ x ∈ l, f x < n) :
    ((List.range n).flatMap fun k => l.filter fun x => f x = k).Perm l := by
  induction n generalizing l with
  | zero =>
    have hnil : l = [] := List.eq_nil_iff_forall_not_mem.mpr fun x hx => Nat.not_lt_zero _ (h x hx)
    rw [hnil]
    exact List.Perm.refl _
  | succ n ih =>
    have hbelow : ((List.range n).flatMap fun k => l.filter fun x => f x = k) =
        (List.range n).flatMap fun k => (l.filter fun x => !decide (f x = n)).filter
          fun x => f x = k := by
      refine List.flatMap_congr fun k hk => ?_
      rw [List.filter_filter]
      refine List.filter_congr fun x _ => ?_
      have hlt := List.mem_range.mp hk
      by_cases hx : f x = k
      · simp [hx, Nat.ne_of_lt hlt]
      · simp [hx]
    have hrest := ih (l := l.filter fun x => !decide (f x = n)) fun x hx => by
      obtain ⟨hmem, hne⟩ := List.mem_filter.mp hx
      have := h x hmem
      have : f x ≠ n := by simpa using hne
      omega
    rw [List.range_succ, List.flatMap_append, List.flatMap_singleton, hbelow]
    refine (hrest.append_right _).trans ?_
    exact List.perm_append_comm.trans (List.filter_append_perm _ l)

lemma ne_nil_of_sublist {m : List β} (h : m.Sublist l) (hne : m ≠ []) : l ≠ [] := by
  rintro rfl
  exact hne (List.sublist_nil.mp h)

lemma mem_of_lookup {κ υ : Type} [BEq κ] [LawfulBEq κ] {l : List (κ × υ)} {k : κ} {v : υ}
    (h : l.lookup k = some v) : (k, v) ∈ l := by
  obtain ⟨before, after, rfl, -⟩ := List.lookup_eq_some_iff.mp h
  exact List.mem_append_right _ List.mem_cons_self

lemma lookup_cons_ne {κ υ : Type} [DecidableEq κ] {l : List (κ × υ)} {k other : κ} {v : υ}
    (h : other ≠ k) : ((k, v) :: l).lookup other = l.lookup other := by
  rw [List.lookup_cons, beq_false_of_ne h]

lemma lookup_filter_ne {κ υ : Type} [DecidableEq κ] (l : List (κ × υ)) (k other : κ) :
    (l.filter fun entry => entry.1 ≠ k).lookup other =
      if other = k then none else l.lookup other := by
  induction l with
  | nil => simp
  | cons entry l ih =>
    obtain ⟨key, v⟩ := entry
    by_cases hkey : key = k
    · subst hkey
      rw [List.filter_cons_of_neg (by simp), ih]
      by_cases h : other = key
      · rw [if_pos h, if_pos h]
      · rw [if_neg h, if_neg h, lookup_cons_ne h]
    · rw [List.filter_cons_of_pos (by simpa using hkey)]
      by_cases h : other = key
      · subst h
        rw [List.lookup_cons_self, List.lookup_cons_self, if_neg hkey]
      · rw [lookup_cons_ne h, lookup_cons_ne h, ih]

/-- An element of a list with one more at the end is that one or stands before it. -/
lemma concat_eq_append_cons {before after : List β} (h : l ++ [a] = before ++ b :: after) :
    (before = l ∧ b = a ∧ after = []) ∨ ∃ rest, after = rest ++ [a] ∧ l = before ++ b :: rest := by
  rcases List.eq_nil_or_concat' after with rfl | ⟨rest, last, rfl⟩
  · obtain ⟨hinit, hlast⟩ := List.append_inj' h rfl
    exact .inl ⟨hinit.symm, (List.cons.inj hlast).1.symm, rfl⟩
  · rw [← List.cons_append, ← List.append_assoc] at h
    obtain ⟨hinit, hlast⟩ := List.append_inj' h rfl
    exact .inr ⟨rest, by rw [(List.cons.inj hlast).1], hinit⟩

end Strand
