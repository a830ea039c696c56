import Mathlib.Data.List.Basic

/-!
# `Base.Slots` — lists whose elements are replaced or taken out one at a time

What a partial function `g` reads of a list of slots before and after one slot changes: `filterMap_set`,
`filterMap_eraseIdx`, and what they say when there is at most one thing to read. `countP_set` and `total_set` are the
same for numbers.
-/

namespace Slots

variable {α β : Type} {l : List α} {i : Nat} {x : α} {b : β} {g : α → Option β}

/-- A slot replaced: what is read before it and after it stays. -/
theorem filterMap_set (h : l[i]? = some x) :
    ∃ before after, l.filterMap g = before ++ ((g x).toList ++ after) ∧
      ∀ y, (l.set i y).filterMap g = before ++ ((g y).toList ++ after) := by
  induction l generalizing i with
  | nil => exact absurd h (by simp)
  | cons z l ih =>
      cases i with
      | zero =>
          rw [List.getElem?_cons_zero] at h
          obtain rfl := Option.some.inj h
          refine ⟨[], l.filterMap g, ?_, ?_⟩
          · cases hz : g z <;> simp [hz]
          · intro y
            cases hy : g y <;> simp [hy]
      | succ i =>
          rw [List.getElem?_cons_succ] at h
          obtain ⟨before, after, hl, hset⟩ := ih h
          refine ⟨(g z).toList ++ before, after, ?_, ?_⟩
          · cases hz : g z <;> simp [hz, hl]
          · intro y
            cases hz : g z <;> simp [hz, hset]

/-- A slot taken out. -/
theorem filterMap_eraseIdx (h : l[i]? = some x) :
    ∃ before after, l.filterMap g = before ++ ((g x).toList ++ after) ∧
      (l.eraseIdx i).filterMap g = before ++ after := by
  induction l generalizing i with
  | nil => exact absurd h (by simp)
  | cons z l ih =>
      cases i with
      | zero =>
          rw [List.getElem?_cons_zero] at h
          obtain rfl := Option.some.inj h
          refine ⟨[], l.filterMap g, ?_, rfl⟩
          cases hz : g z <;> simp [hz]
      | succ i =>
          rw [List.getElem?_cons_succ] at h
          obtain ⟨before, after, hl, herase⟩ := ih h
          refine ⟨(g z).toList ++ before, after, ?_, ?_⟩
          · cases hz : g z <;> simp [hz, hl]
          · cases hz : g z <;> simp [List.eraseIdx_cons_succ, hz, herase]

/-- What does not change in the slot does not change in the list. -/
theorem filterMap_set_eq (h : l[i]? = some x) {y : α} (hy : g y = g x) : (l.set i y).filterMap g = l.filterMap g := by
  obtain ⟨before, after, hl, hset⟩ := filterMap_set (g := g) h
  rw [hset y, hl, hy]

/-- The only thing to read goes out with its slot. -/
theorem filterMap_set_none (h : l[i]? = some x) (hx : g x = some b) (hlen : (l.filterMap g).length ≤ 1) {y : α}
    (hy : g y = none) : l.filterMap g = [b] ∧ (l.set i y).filterMap g = [] := by
  obtain ⟨before, after, hl, hset⟩ := filterMap_set (g := g) h
  rw [hl, hx] at hlen
  simp only [Option.toList_some, List.length_append, List.length_singleton] at hlen
  have hbefore : before = [] := List.eq_nil_of_length_eq_zero (by omega)
  have hafter : after = [] := List.eq_nil_of_length_eq_zero (by omega)
  rw [hset y, hl, hx, hy, hbefore, hafter]
  exact ⟨rfl, rfl⟩

/-- The first thing to read comes in with a slot. -/
theorem filterMap_set_some (h : l[i]? = some x) (hl : l.filterMap g = []) {y : α} (hy : g y = some b) :
    (l.set i y).filterMap g = [b] := by
  obtain ⟨before, after, hl', hset⟩ := filterMap_set (g := g) h
  rw [hl] at hl'
  obtain ⟨rfl, hrest⟩ := List.append_eq_nil_iff.mp hl'.symm
  obtain ⟨_, rfl⟩ := List.append_eq_nil_iff.mp hrest
  rw [hset y, hy]
  rfl

theorem filterMap_eraseIdx_eq (h : l[i]? = some x) (hx : g x = none) :
    (l.eraseIdx i).filterMap g = l.filterMap g := by
  obtain ⟨before, after, hl, herase⟩ := filterMap_eraseIdx (g := g) h
  rw [herase, hl, hx]
  rfl

theorem filterMap_eraseIdx_none (h : l[i]? = some x) (hx : g x = some b) (hlen : (l.filterMap g).length ≤ 1) :
    l.filterMap g = [b] ∧ (l.eraseIdx i).filterMap g = [] := by
  obtain ⟨before, after, hl, herase⟩ := filterMap_eraseIdx (g := g) h
  rw [hl, hx] at hlen
  simp only [Option.toList_some, List.length_append, List.length_singleton] at hlen
  have hbefore : before = [] := List.eq_nil_of_length_eq_zero (by omega)
  have hafter : after = [] := List.eq_nil_of_length_eq_zero (by omega)
  rw [herase, hl, hx, hbefore, hafter]
  exact ⟨rfl, rfl⟩

/-! ## Counts and totals -/

theorem countP_set (h : l[i]? = some x) (p : α → Bool) (y : α) :
    (l.set i y).countP p + (if p x then 1 else 0) = l.countP p + (if p y then 1 else 0) := by
  induction l generalizing i with
  | nil => exact absurd h (by simp)
  | cons z l ih =>
      cases i with
      | zero =>
          rw [List.getElem?_cons_zero] at h
          obtain rfl := Option.some.inj h
          simp only [List.set_cons_zero, List.countP_cons]
          omega
      | succ i =>
          rw [List.getElem?_cons_succ] at h
          have := ih h
          simp only [List.set_cons_succ, List.countP_cons]
          omega

/-- The total of the weights of the slots. -/
def total (f : α → Nat) : List α → Nat
  | []     => 0
  | x :: l => f x + total f l

@[simp] theorem total_append (f : α → Nat) (l l' : List α) : total f (l ++ l') = total f l + total f l' := by
  induction l with
  | nil => simp [total]
  | cons x l ih => simp [total, ih, Nat.add_assoc]

theorem total_set (h : l[i]? = some x) (f : α → Nat) (y : α) : total f (l.set i y) + f x = total f l + f y := by
  induction l generalizing i with
  | nil => exact absurd h (by simp)
  | cons z l ih =>
      cases i with
      | zero =>
          rw [List.getElem?_cons_zero] at h
          obtain rfl := Option.some.inj h
          simp only [List.set_cons_zero, total]
          omega
      | succ i =>
          rw [List.getElem?_cons_succ] at h
          have := ih h
          simp only [List.set_cons_succ, total]
          omega

/-- The new content of a slot is in the list. -/
theorem mem_set (h : l[i]? = some x) (y : α) : y ∈ l.set i y :=
  List.mem_set (List.getElem?_eq_some_iff.mp h).1 y

end Slots
