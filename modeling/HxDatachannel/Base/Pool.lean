import Mathlib.Algebra.Order.BigOperators.Group.List
import Mathlib.Algebra.Order.Ring.Nat

/-!
# `Base.Pool` — counting over a pool of stacks

A pool of threads is a list of stacks of frames. `tally w pool` adds the weight `w` of every frame of
every stack; since a step of one thread replaces one stack, the whole argument about such a sum is the
exchange law `tally_set`.
-/

namespace Pool

variable {α : Type}

/-- The total weight of the frames of one stack. -/
def weight (w : α → Nat) (stack : List α) : Nat := (stack.map w).sum

/-- The total weight of the frames of all stacks. -/
def tally (w : α → Nat) (pool : List (List α)) : Nat := (pool.map (weight w)).sum

@[simp] theorem weight_nil (w : α → Nat) : weight w [] = 0 := rfl

@[simp] theorem weight_cons (w : α → Nat) (f : α) (stack : List α) :
    weight w (f :: stack) = w f + weight w stack := rfl

@[simp] theorem weight_append (w : α → Nat) (xs ys : List α) :
    weight w (xs ++ ys) = weight w xs + weight w ys := by simp [weight]

@[simp] theorem tally_nil (w : α → Nat) : tally w [] = 0 := rfl

@[simp] theorem tally_cons (w : α → Nat) (stack : List α) (pool : List (List α)) :
    tally w (stack :: pool) = weight w stack + tally w pool := rfl

@[simp] theorem tally_append (w : α → Nat) (p q : List (List α)) :
    tally w (p ++ q) = tally w p + tally w q := by simp [tally]

/-- **The exchange law.** Replacing one stack exchanges its weight for the new one's. -/
theorem tally_set {w : α → Nat} {pool : List (List α)} {i : Nat} {stack : List α}
    (h : pool[i]? = some stack) (stack' : List α) :
    tally w (pool.set i stack') + weight w stack = tally w pool + weight w stack' := by
  induction pool generalizing i with
  | nil => simp at h
  | cons p pool ih =>
      cases i with
      | zero =>
          simp only [List.getElem?_cons_zero, Option.some.injEq] at h
          subst h
          simp only [List.set_cons_zero, tally_cons]
          omega
      | succ i =>
          simp only [List.getElem?_cons_succ] at h
          have := ih h
          simp only [List.set_cons_succ, tally_cons]
          omega

/-- One stack weighs no more than the pool. -/
theorem weight_le_tally {w : α → Nat} {pool : List (List α)} {i : Nat} {stack : List α}
    (h : pool[i]? = some stack) : weight w stack ≤ tally w pool := by
  have := tally_set (w := w) h []
  simp only [weight_nil, Nat.add_zero] at this
  omega

/-- A smaller weight of every frame is a smaller total. -/
theorem tally_mono {w v : α → Nat} (h : ∀ f, w f ≤ v f) (pool : List (List α)) :
    tally w pool ≤ tally v pool :=
  List.sum_le_sum fun _ _ => List.sum_le_sum fun f _ => h f

/-- A property of every stack survives replacing one stack by one that has it. -/
theorem forall_set {P : List α → Prop} {pool : List (List α)} {i : Nat} {stack' : List α}
    (h : ∀ s ∈ pool, P s) (h' : P stack') : ∀ s ∈ pool.set i stack', P s := by
  intro s hs
  rcases List.mem_or_eq_of_mem_set hs with hs | rfl
  · exact h s hs
  · exact h'

end Pool
