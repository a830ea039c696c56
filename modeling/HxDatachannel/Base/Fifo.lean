/-!
# `Base.Fifo` — a queue with its history

`Fifo α` is a list used as a first-in first-out queue, together with the two logs that say what went
in and what came out, each in order. `Conserved` is the law of such a queue: what came out followed by
what is still inside is what went in, so nothing is lost, duplicated or overtaken.
-/

/-- A queue with the log of everything pushed and everything popped so far. -/
structure Fifo (α : Type) where
  queue  : List α
  pushed : List α
  popped : List α
deriving DecidableEq, Repr

namespace Fifo

variable {α : Type}

def empty : Fifo α := ⟨[], [], []⟩

/-- Append at the end. -/
def push (q : Fifo α) (x : α) : Fifo α :=
  { q with queue := q.queue ++ [x], pushed := q.pushed ++ [x] }

/-- Take the head; `none` when there is nothing to take. -/
def pop (q : Fifo α) : Option (α × Fifo α) :=
  match q.queue with
  | []      => none
  | x :: xs => some (x, { q with queue := xs, popped := q.popped ++ [x] })

/-- What goes in and comes out at once, past the queue. -/
def pass (q : Fifo α) (x : α) : Fifo α :=
  { q with pushed := q.pushed ++ [x], popped := q.popped ++ [x] }

/-- **Conservation.** What came out, then what is inside, is what went in. -/
def Conserved (q : Fifo α) : Prop := q.popped ++ q.queue = q.pushed

@[simp] theorem push_queue (q : Fifo α) (x : α) : (q.push x).queue = q.queue ++ [x] := rfl
@[simp] theorem push_pushed (q : Fifo α) (x : α) : (q.push x).pushed = q.pushed ++ [x] := rfl
@[simp] theorem push_popped (q : Fifo α) (x : α) : (q.push x).popped = q.popped := rfl

theorem pop_eq_none {q : Fifo α} (h : q.pop = none) : q.queue = [] := by
  unfold pop at h
  split at h
  · assumption
  · exact absurd h (by simp)

/-- What a successful pop does: the head moves from the queue to the end of the popped log. -/
theorem pop_eq_some {q q' : Fifo α} {x : α} (h : q.pop = some (x, q')) :
    q.queue = x :: q'.queue ∧ q'.popped = q.popped ++ [x] ∧ q'.pushed = q.pushed := by
  unfold pop at h
  split at h
  · exact absurd h (by simp)
  · rename_i y ys hq
    simp only [Option.some.injEq, Prod.mk.injEq] at h
    obtain ⟨rfl, rfl⟩ := h
    exact ⟨hq, rfl, rfl⟩

theorem conserved_empty : (empty : Fifo α).Conserved := rfl

theorem Conserved.push {q : Fifo α} (h : q.Conserved) (x : α) : (q.push x).Conserved := by
  unfold Conserved at h ⊢
  rw [push_popped, push_queue, push_pushed, ← List.append_assoc, h]

theorem Conserved.pop {q q' : Fifo α} {x : α} (h : q.Conserved) (hp : q.pop = some (x, q')) :
    q'.Conserved := by
  obtain ⟨hq, hpop, hpush⟩ := pop_eq_some hp
  unfold Conserved at h ⊢
  rw [hpop, hpush, ← h, hq, List.append_assoc, List.singleton_append]

/-- Only an empty queue is not overtaken. -/
theorem Conserved.pass {q : Fifo α} (h : q.Conserved) (hq : q.queue = []) (x : α) :
    (q.pass x).Conserved := by
  unfold Conserved at h ⊢
  show (q.popped ++ [x]) ++ q.queue = q.pushed ++ [x]
  rw [hq, List.append_nil] at h ⊢
  rw [h]

/-- What is popped was pushed. -/
theorem Conserved.mem_of_pop {q q' : Fifo α} {x : α} (h : q.Conserved) (hp : q.pop = some (x, q')) :
    x ∈ q.pushed := by
  have hq := (pop_eq_some hp).1
  unfold Conserved at h
  rw [← h, hq]
  simp

/-! ## The part of a queue that meets a predicate -/

/-- What the queue and its logs hold of the elements that meet `p`. -/
def filter (p : α → Bool) (q : Fifo α) : Fifo α :=
  ⟨q.queue.filter p, q.pushed.filter p, q.popped.filter p⟩

theorem filter_push_pos {p : α → Bool} {x : α} (q : Fifo α) (hx : p x = true) :
    (q.push x).filter p = (q.filter p).push x := by
  simp [filter, push, List.filter_append, hx]

theorem filter_push_neg {p : α → Bool} {x : α} (q : Fifo α) (hx : p x = false) :
    (q.push x).filter p = q.filter p := by
  simp [filter, push, List.filter_append, hx]

theorem filter_pop_pos {p : α → Bool} {x : α} {q q' : Fifo α} (h : q.pop = some (x, q'))
    (hx : p x = true) : (q.filter p).pop = some (x, q'.filter p) := by
  obtain ⟨hq, hpop, hpush⟩ := pop_eq_some h
  simp [filter, pop, hq, hpop, hpush, List.filter_append, hx]

theorem filter_pop_neg {p : α → Bool} {x : α} {q q' : Fifo α} (h : q.pop = some (x, q'))
    (hx : p x = false) : q'.filter p = q.filter p := by
  obtain ⟨hq, hpop, hpush⟩ := pop_eq_some h
  simp [filter, hq, hpop, hpush, List.filter_append, hx]

end Fifo
