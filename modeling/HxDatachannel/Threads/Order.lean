import HxDatachannel.Base.Serial
import HxDatachannel.Threads.Effect

/-!
# `Threads.Order` — a processor is a serial executor

Whatever the workers do and however many there are, the tasks of one processor start and finish as those of
`Serial`: one at a time, in the order in which they were given to it. What carries it is that a processor has
one of its tasks in the hands of the pool when `mPending` is set, and none otherwise (`Alone`).

## Contents
- **One processor.** `View`: what the system holds of a processor; `Change`: what a step can do to it.
- **Refinement.** `processor_serial`.
- **Results.** `tasks_in_order`, `join_returns`, `lost_never_joins`.
-/

namespace HxDatachannel.Threads

open Lts

variable {α : Type}

/-! ## One processor -/

/-- What the system holds of one processor: its tasks that run, those that the pool has, and its own state. -/
structure View (α : Type) where
  running : List α
  inPool  : List α
  own     : Processor α

/-- A processor that is not made yet is empty. -/
def System.view (s : System α) (q : Nat) : View α :=
  { running := s.pool.mWorkers.filterMap (Worker.of q),
    inPool  := s.pool.mTasks.filterMap (Task.of q),
    own     := s.processors[q]?.getD .init }

/-- What a step is for one processor. -/
inductive Label (α : Type) where
  | none
  | enqueue (task : α)
  | start (task : α)
  | finish (task : α)
deriving DecidableEq, Repr

def label (q : Nat) (s : System α) : Act α → Label α
  | .enqueue q' task _ => if q' = q then .enqueue task else .none
  | .dequeue _ j       =>
      match (s.pool.mTasks[j]?).bind (Task.of q) with
      | some task => .start task
      | none      => .none
  | .finish i _        =>
      match (s.pool.mWorkers[i]?).bind (Worker.of q) with
      | some task => .finish task
      | none      => .none
  | _                  => .none

def Label.acts : Label α → List (Serial.Act α)
  | .none         => []
  | .enqueue task => [.submit task]
  | .start _      => [.start]
  | .finish _     => [.finish]

def Label.enqueued : Label α → List α
  | .enqueue task => [task]
  | _             => []

def Label.started : Label α → List α
  | .start task => [task]
  | _           => []

def Label.finished : Label α → List α
  | .finish task => [task]
  | _            => []

/-- The task of processor `q` that a step enqueues, starts, finishes. -/
def enqueued (q : Nat) (s : System α) (a : Act α) : List α := (label q s a).enqueued
def started (q : Nat) (s : System α) (a : Act α) : List α := (label q s a).started
def finished (q : Nat) (s : System α) (a : Act α) : List α := (label q s a).finished

inductive Change : View α → Label α → View α → Prop
  | same (v : View α) : Change v .none v
  | enqueue {v : View α} (task : α) : v.own.mPending = true →
      Change v (.enqueue task) { v with own := { v.own with mTasks := v.own.mTasks ++ [task] } }
  | submit {v : View α} (task : α) : v.own.mPending = false →
      Change v (.enqueue task) { v with inPool := v.inPool ++ [task], own := { v.own with mPending := true } }
  | dequeue {before after before' after' : List α} {task : α} {r : Processor α} :
      Change ⟨before ++ after, before' ++ ([task] ++ after'), r⟩ (.start task)
        ⟨before ++ ([task] ++ after), before' ++ after', r⟩
  | chain {before after inPool tasks : List α} {task next : α} {r : Processor α} : r.mTasks = next :: tasks →
      Change ⟨before ++ ([task] ++ after), inPool, r⟩ (.finish task)
        ⟨before ++ after, inPool ++ [next], { r with mTasks := tasks }⟩
  | last {before after inPool : List α} {task : α} {r : Processor α} : r.mTasks = [] →
      Change ⟨before ++ ([task] ++ after), inPool, r⟩ (.finish task)
        ⟨before ++ after, inPool, { r with mPending := false }⟩
  | clear (v : View α) :
      Change v .none { v with inPool := [], own := { v.own with lost := v.own.lost ++ v.inPool } }

/-- The pool has one task of the processor, or had it when it was cleared, iff `mPending` is set. -/
def Alone (v : View α) : Prop :=
  v.running.length + v.inPool.length + v.own.lost.length = (if v.own.mPending then 1 else 0) ∧
    (v.own.mPending = false → v.own.mTasks = [])

/-- A processor as a serial executor. A task that was lost waits, and so do those behind it. -/
def View.serial (v : View α) : Serial.State α :=
  { current := v.running.head?, waiting := v.own.lost ++ (v.inPool ++ v.own.mTasks) }

theorem Change.alone {v v' : View α} {l : Label α} (h : Change v l v') (hv : Alone v) : Alone v' := by
  obtain ⟨hlen, hrest⟩ := hv
  cases h with
  | same => exact ⟨hlen, hrest⟩
  | enqueue task hpending =>
      refine ⟨hlen, ?_⟩
      intro hfree
      exact absurd (hpending.symm.trans hfree) (by simp)
  | submit task hpending =>
      rw [if_neg (by simp [hpending])] at hlen
      refine ⟨?_, by simp⟩
      simp only [List.length_append, List.length_singleton, if_true]
      omega
  | dequeue =>
      refine ⟨?_, hrest⟩
      simp only [List.length_append, List.length_singleton] at hlen ⊢
      omega
  | @chain before after inPool tasks task next r htasks =>
      refine ⟨?_, ?_⟩
      · simp only [List.length_append, List.length_singleton] at hlen ⊢
        omega
      · intro hfree
        exact absurd (htasks.symm.trans (hrest hfree)) (by simp)
  | @last before after inPool task r htasks =>
      refine ⟨?_, fun _ => htasks⟩
      simp only [List.length_append, List.length_singleton] at hlen ⊢
      rw [if_neg (by simp)]
      split at hlen <;> omega
  | clear =>
      refine ⟨?_, hrest⟩
      simp only [List.length_append, List.length_nil] at hlen ⊢
      omega

/-- A list in a view that holds one element has no other part. -/
theorem nil_of_length {xs : List α} {n : Nat} (h : xs.length + n ≤ 1) (hn : 0 < n) : xs = [] :=
  List.eq_nil_of_length_eq_zero (by omega)

theorem Alone.length_le {v : View α} (h : Alone v) :
    v.running.length + v.inPool.length + v.own.lost.length ≤ 1 := by
  have := h.1
  split at this <;> omega

/-- **The step of the refinement.** -/
theorem Change.serial {v v' : View α} {l : Label α} (h : Change v l v') (hv : Alone v) :
    exec Serial.step Any v.serial l.acts = some v'.serial := by
  have hlen := hv.length_le
  cases h with
  | same => rfl
  | enqueue task hpending =>
      simp [Label.acts, exec, Any, Serial.step, View.serial]
  | submit task hpending =>
      simp [Label.acts, exec, Any, Serial.step, View.serial, hv.2 hpending]
  | @dequeue before after before' after' task r =>
      simp only [List.length_append, List.length_singleton] at hlen
      obtain rfl : before = [] := List.eq_nil_of_length_eq_zero (by omega)
      obtain rfl : after = [] := List.eq_nil_of_length_eq_zero (by omega)
      obtain rfl : before' = [] := List.eq_nil_of_length_eq_zero (by omega)
      obtain rfl : after' = [] := List.eq_nil_of_length_eq_zero (by omega)
      have hlost : r.lost = [] := List.eq_nil_of_length_eq_zero (by omega)
      simp [Label.acts, exec, Any, Serial.step, View.serial, hlost]
  | @chain before after inPool tasks task next r htasks =>
      simp only [List.length_append, List.length_singleton] at hlen
      obtain rfl : before = [] := List.eq_nil_of_length_eq_zero (by omega)
      obtain rfl : after = [] := List.eq_nil_of_length_eq_zero (by omega)
      obtain rfl : inPool = [] := List.eq_nil_of_length_eq_zero (by omega)
      simp [Label.acts, exec, Any, Serial.step, View.serial, htasks]
  | @last before after inPool task r htasks =>
      simp only [List.length_append, List.length_singleton] at hlen
      obtain rfl : before = [] := List.eq_nil_of_length_eq_zero (by omega)
      obtain rfl : after = [] := List.eq_nil_of_length_eq_zero (by omega)
      simp [Label.acts, exec, Any, Serial.step, View.serial]
  | clear => simp [Label.acts, exec, View.serial]

/-- What the executor says of a step is what the system says of it. -/
theorem Change.log {v v' : View α} {l : Label α} (h : Change v l v') (hv : Alone v) :
    collect Serial.step Serial.submitted v.serial l.acts = l.enqueued ∧
    collect Serial.step Serial.started v.serial l.acts = l.started ∧
    collect Serial.step Serial.finished v.serial l.acts = l.finished := by
  have hlen := hv.length_le
  cases h with
  | same => exact ⟨rfl, rfl, rfl⟩
  | enqueue task hpending => exact ⟨rfl, rfl, rfl⟩
  | submit task hpending => exact ⟨rfl, rfl, rfl⟩
  | @dequeue before after before' after' task r =>
      simp only [List.length_append, List.length_singleton] at hlen
      obtain rfl : before = [] := List.eq_nil_of_length_eq_zero (by omega)
      obtain rfl : after = [] := List.eq_nil_of_length_eq_zero (by omega)
      obtain rfl : before' = [] := List.eq_nil_of_length_eq_zero (by omega)
      have hlost : r.lost = [] := List.eq_nil_of_length_eq_zero (by omega)
      simp [Label.acts, collect, Serial.step, View.serial, hlost, Serial.submitted, Serial.started, Serial.finished,
        Label.enqueued, Label.started, Label.finished]
  | @chain before after inPool tasks task next r htasks =>
      simp only [List.length_append, List.length_singleton] at hlen
      obtain rfl : before = [] := List.eq_nil_of_length_eq_zero (by omega)
      exact ⟨rfl, rfl, rfl⟩
  | @last before after inPool task r htasks =>
      simp only [List.length_append, List.length_singleton] at hlen
      obtain rfl : before = [] := List.eq_nil_of_length_eq_zero (by omega)
      exact ⟨rfl, rfl, rfl⟩
  | clear => exact ⟨rfl, rfl, rfl⟩

/-! ## What a step does to the view of a processor -/

theorem Notified.filterMap {ws ws' : List (Worker α)} (h : Notified ws ws') (q : Nat) :
    ws'.filterMap (Worker.of q) = ws.filterMap (Worker.of q) := by
  rcases h with ⟨rfl, _⟩ | ⟨i, time, hi, rfl⟩
  · rfl
  · exact Slots.filterMap_set_eq hi rfl

theorem Turn.of_eq {p : ThreadPool α} {i : Nat} {a : Act α} {w w' : Worker α} {busy : Int}
    (h : Turn p i a w w' busy) (q : Nat) : w'.of q = w.of q := by
  cases h <;> rfl

theorem notify_of (q : Nat) (w : Worker α) : w.notify.of q = w.of q := by
  cases w <;> rfl

/-- Processor `q'` after a change of processor `q`. -/
theorem own_set {s : System α} {q : Nat} {r : Processor α} (h : s.processors[q]? = some r) (r' : Processor α)
    (q' : Nat) : (s.processors.set q r')[q']?.getD .init = if q = q' then r' else s.processors[q']?.getD .init := by
  have hlt := (List.getElem?_eq_some_iff.mp h).1
  rw [List.getElem?_set, if_pos hlt]
  split
  · rename_i heq
    subst heq
    rfl
  · rfl

theorem Func.of_ne {q q' : Nat} (h : q ≠ q') (task : α) : (Func.processor q task).of q' = none := if_neg h

theorem Func.of_self (q : Nat) (task : α) : (Func.processor q task).of q = some task := if_pos rfl

theorem Change.of_eq {v v' : View α} (h : v' = v) : Change v .none v' := h ▸ Change.same v

/-- A task that processor `q` gives to the pool. -/
theorem put_view {s : System α} {q : Nat} {task : α} {r r' : Processor α} {ws : List (Worker α)}
    (hr : s.processors[q]? = some r) (hws : Notified s.pool.mWorkers ws) (q' : Nat) :
    System.view ⟨s.pool.put ws ⟨s.pool.now, .processor q task⟩, s.processors.set q r'⟩ q' =
      if q = q' then ⟨(s.view q').running, (s.view q').inPool ++ [task], r'⟩ else s.view q' := by
  simp only [System.view, ThreadPool.put, hws.filterMap q', List.filterMap_append, own_set hr]
  split
  · rename_i heq
    subst heq
    simp [Task.of, Func.of_self]
  · rename_i hne
    simp [Task.of, Func.of_ne hne]

theorem own_of_some {s : System α} {q : Nat} {r : Processor α} (h : s.processors[q]? = some r) :
    (s.view q).own = r := by
  simp [System.view, h]

theorem enqueue_change {s : System α} {q : Nat} {task : α} {r : Processor α} (hr : s.processors[q]? = some r)
    (hpending : r.mPending = true) (notified : Option Nat) (q' : Nat) :
    Change (s.view q') (label q' s (.enqueue q task notified))
      (System.view ⟨s.pool, s.processors.set q { r with mTasks := r.mTasks ++ [task] }⟩ q') := by
  simp only [System.view, own_set hr, label]
  split
  · rename_i heq
    subst heq
    rw [hr]
    exact Change.enqueue (v := ⟨_, _, r⟩) task hpending
  · exact Change.same _

theorem submit_change {s : System α} {q : Nat} {task : α} {r : Processor α} {ws : List (Worker α)}
    (hr : s.processors[q]? = some r) (hpending : r.mPending = false) (hws : Notified s.pool.mWorkers ws)
    (notified : Option Nat) (q' : Nat) :
    Change (s.view q') (label q' s (.enqueue q task notified))
      (System.view ⟨s.pool.put ws ⟨s.pool.now, .processor q task⟩, s.processors.set q { r with mPending := true }⟩
        q') := by
  rw [put_view hr hws]
  simp only [label]
  split
  · rename_i heq
    subst heq
    have hown := own_of_some hr
    rw [← hown] at hpending ⊢
    exact Change.submit task hpending
  · exact Change.same _

theorem turn_change {s : System α} {a : Act α} {i : Nat} {w w' : Worker α} {busy : Int}
    (hw : s.pool.mWorkers[i]? = some w) (h : Turn s.pool i a w w' busy) (q : Nat) :
    Change (s.view q) (label q s a) (System.view (s.setPool (s.pool.turn i w' busy)) q) := by
  have hlabel : label q s a = .none := by cases h <;> rfl
  rw [hlabel]
  apply Change.of_eq
  simp only [System.view, System.setPool, ThreadPool.turn]
  rw [Slots.filterMap_set_eq hw (h.of_eq q)]

theorem dequeue_change {s : System α} {i j : Nat} {task : Task α} (hi : s.pool.mWorkers[i]? = some .ready)
    (hj : s.pool.mTasks[j]? = some task) (q : Nat) :
    Change (s.view q) (label q s (.dequeue i j))
      (System.view (s.setPool { s.pool with
        mWorkers := s.pool.mWorkers.set i (.busy task.func), mTasks := s.pool.mTasks.eraseIdx j }) q) := by
  simp only [label, hj, Option.bind_some]
  cases htask : task.of q with
  | none =>
      apply Change.of_eq
      simp only [System.view, System.setPool]
      rw [Slots.filterMap_set_eq hi (show (Worker.busy task.func).of q = Worker.of q .ready from htask),
        Slots.filterMap_eraseIdx_eq hj htask]
  | some x =>
      obtain ⟨before, after, hl, hset⟩ := Slots.filterMap_set (g := Worker.of q) hi
      obtain ⟨before', after', hl', herase⟩ := Slots.filterMap_eraseIdx (g := Task.of q) hj
      have hbusy : (Worker.busy task.func).of q = some x := htask
      have hready : Worker.of q (.ready : Worker α) = none := rfl
      simp only [System.view, System.setPool, hl, hset, hl', herase, htask, hbusy, hready]
      exact Change.dequeue

/-- A function that is not one of processor `q` returns. -/
theorem return_change {s : System α} {i : Nat} {func : Func α} (hi : s.pool.mWorkers[i]? = some (.busy func))
    {q : Nat} (hfunc : func.of q = none) (notified : Option Nat) :
    label q s (.finish i notified) = .none ∧
      (s.pool.mWorkers.set i .ready).filterMap (Worker.of q) = s.pool.mWorkers.filterMap (Worker.of q) := by
  have hnone : (Worker.busy func).of q = none := hfunc
  refine ⟨?_, ?_⟩
  · simp only [label, hi, Option.bind_some, hnone]
  · exact Slots.filterMap_set_eq hi hnone.symm

/-- A task of processor `q` returns. -/
theorem ends_change {s : System α} {i q : Nat} {task : α}
    (hi : s.pool.mWorkers[i]? = some (.busy (.processor q task))) (notified : Option Nat) :
    label q s (.finish i notified) = .finish task ∧
      ∃ before after, s.pool.mWorkers.filterMap (Worker.of q) = before ++ ([task] ++ after) ∧
        (s.pool.mWorkers.set i .ready).filterMap (Worker.of q) = before ++ after := by
  have hsome : Worker.of q (.busy (.processor q task)) = some task := Func.of_self q task
  obtain ⟨before, after, hl, hset⟩ := Slots.filterMap_set (g := Worker.of q) hi
  refine ⟨?_, before, after, ?_, ?_⟩
  · simp only [label, hi, Option.bind_some, hsome]
  · rw [hl, hsome]
    rfl
  · exact hset .ready

theorem chain_change {s : System α} {i q : Nat} {task next : α} {r : Processor α} {tasks : List α}
    {ws : List (Worker α)} (hi : s.pool.mWorkers[i]? = some (.busy (.processor q task)))
    (hr : s.processors[q]? = some r) (htasks : r.mTasks = next :: tasks)
    (hws : Notified (s.pool.mWorkers.set i .ready) ws) (notified : Option Nat) (q' : Nat) :
    Change (s.view q') (label q' s (.finish i notified))
      (System.view ⟨s.pool.put ws ⟨s.pool.now, .processor q next⟩, s.processors.set q { r with mTasks := tasks }⟩
        q') := by
  let s' := s.setPool { s.pool with mWorkers := s.pool.mWorkers.set i .ready }
  have hput := @put_view α s' q next r { r with mTasks := tasks } ws hr hws q'
  rw [show s.pool.put ws ⟨s.pool.now, .processor q next⟩ = s'.pool.put ws ⟨s'.pool.now, .processor q next⟩ from rfl,
    show s.processors = s'.processors from rfl, hput]
  by_cases heq : q = q'
  · subst heq
    obtain ⟨hlabel, before, after, hl, hset⟩ := ends_change hi notified
    rw [if_pos rfl, hlabel]
    have hown := own_of_some hr
    simp only [System.view] at hown ⊢
    rw [hown, hl, show s'.pool.mWorkers.filterMap (Worker.of q) = before ++ after from hset]
    exact Change.chain htasks
  · obtain ⟨hlabel, hsame⟩ := return_change hi (Func.of_ne heq task) notified
    rw [if_neg heq, hlabel]
    apply Change.of_eq
    simp only [System.view]
    rw [show s'.pool.mWorkers.filterMap (Worker.of q') = s.pool.mWorkers.filterMap (Worker.of q') from hsame]
    rfl

theorem last_change {s : System α} {i q : Nat} {task : α} {r : Processor α}
    (hi : s.pool.mWorkers[i]? = some (.busy (.processor q task))) (hr : s.processors[q]? = some r)
    (htasks : r.mTasks = []) (notified : Option Nat) (q' : Nat) :
    Change (s.view q') (label q' s (.finish i notified))
      (System.view ⟨{ s.pool with mWorkers := s.pool.mWorkers.set i .ready },
        s.processors.set q { r with mPending := false }⟩ q') := by
  by_cases heq : q = q'
  · subst heq
    obtain ⟨hlabel, before, after, hl, hset⟩ := ends_change hi notified
    have hown := own_of_some hr
    rw [hlabel]
    simp only [System.view, own_set hr, if_true] at hown ⊢
    rw [hown, hl, hset]
    exact Change.last htasks
  · obtain ⟨hlabel, hsame⟩ := return_change hi (Func.of_ne heq task) notified
    rw [hlabel]
    apply Change.of_eq
    simp only [System.view, own_set hr, if_neg heq, hsame]

/-- A processor that is not made yet has nothing in the pool. -/
theorem Alone.inPool_eq_nil {s : System α} {q : Nat} (h : Alone (s.view q)) (hq : s.processors[q]? = none) :
    (s.view q).inPool = [] := by
  have hown : (s.view q).own = .init := by simp [System.view, hq]
  have hlen := h.1
  rw [hown] at hlen
  exact List.eq_nil_of_length_eq_zero (by simp [Processor.init] at hlen; simp [hlen])

theorem clear_change {s : System α} {q : Nat} (hv : Alone (s.view q)) :
    Change (s.view q) .none (s.clear.view q) := by
  cases hq : s.processors[q]? with
  | none =>
      have hpool := hv.inPool_eq_nil hq
      apply Change.of_eq
      simp only [System.view] at hpool ⊢
      simp [System.clear, ThreadPool.clear, List.getElem?_mapIdx, hq, hpool]
  | some r =>
      have hclear : s.clear.view q =
          { s.view q with inPool := [], own := { (s.view q).own with lost := (s.view q).own.lost ++ (s.view q).inPool } } := by
        simp [System.view, System.clear, ThreadPool.clear, List.getElem?_mapIdx, hq]
      rw [hclear]
      exact Change.clear _

/-- **What a step does to one processor.** -/
theorem step_change {s t : System α} {a : Act α} (h : step s a = some t) {q : Nat} (hv : Alone (s.view q)) :
    Change (s.view q) (label q s a) (t.view q) := by
  cases step_effect h with
  | tick => exact Change.same _
  | spawn count =>
      apply Change.of_eq
      simp [System.view, System.setPool, ThreadPool.spawn, List.filterMap_append, List.filterMap_replicate, Worker.of]
  | processor =>
      apply Change.of_eq
      simp only [System.view, List.getElem?_append]
      split
      · rfl
      · rename_i hlt
        rw [List.getElem?_eq_none (Nat.le_of_not_lt hlt)]
        cases q - s.processors.length <;> rfl
  | enqueue hr hpending => exact enqueue_change hr hpending _ q
  | submit hr hpending hws => exact submit_change hr hpending hws _ q
  | schedule hws =>
      apply Change.of_eq
      simp [System.view, System.setPool, ThreadPool.put, hws.filterMap q, List.filterMap_append, Task.of, Func.of]
  | turn hw hturn => exact turn_change hw hturn q
  | dequeue hi hj => exact dequeue_change hi hj q
  | @«return» i notified task hi =>
      obtain ⟨hlabel, hsame⟩ := return_change hi (q := q) rfl notified
      rw [hlabel]
      apply Change.of_eq
      simp only [System.view, System.setPool, hsame]
  | chain hi hr htasks hws => exact chain_change hi hr htasks hws _ q
  | last hi hr htasks => exact last_change hi hr htasks _ q
  | join =>
      apply Change.of_eq
      simp only [System.view, System.setPool, List.filterMap_map]
      rw [show Worker.of q ∘ Worker.notify = Worker.of (α := α) q from funext (notify_of q)]
  | joined _ hexited =>
      apply Change.of_eq
      have hnil : s.pool.mWorkers.filterMap (Worker.of q) = [] := by
        rw [List.filterMap_eq_nil_iff]
        intro w hw
        have := hexited w hw
        cases w <;> first | rfl | exact absurd this (by simp [Worker.isExited])
      simp only [System.view, System.setPool, hnil, List.filterMap_nil]
  | clear => exact clear_change hv

/-! ## Refinement -/

/-- Every processor has at most one task in the hands of the pool. -/
def Inv (s : System α) : Prop := ∀ q, Alone (s.view q)

theorem inv_init : Inv (System.init : System α) := by
  intro q
  exact ⟨rfl, fun _ => rfl⟩

theorem Inv.kept {s t : System α} {a : Act α} (hs : Inv s) (h : step s a = some t) : Inv t :=
  fun q => (step_change h (hs q)).alone (hs q)

theorem Inv.exec {s t : System α} {as : List (Act α)} (hs : Inv s) (h : exec step Any s as = some t) : Inv t :=
  (Path.of_exec h).invariant (fun _ _ _ hs _ hstep => hs.kept hstep) hs

/-- **Refinement.** Every run of the system is, for each processor, a run of a serial executor. -/
theorem processor_serial {as : List (Act α)} {s : System α} (h : exec step Any .init as = some s) (q : Nat) :
    exec Serial.step Any Serial.idle (collect step (fun s a => (label q s a).acts) .init as) = some (s.view q).serial :=
  exec_project (f := fun s => (System.view s q).serial) (fun _ _ _ hs hstep => hs.kept hstep)
    (fun _ _ _ hs hstep => (step_change hstep (hs q)).serial (hs q)) inv_init h

/-! ## Results -/

/-- Two workers and a processor with three tasks; a timer runs between them. -/
def errands : List (Act Nat) :=
  [.spawn 2, .processor, .enqueue 0 7 none, .start 0, .start 1, .dequeue 0 0, .enqueue 0 8 none, .schedule 0 1 none,
    .dequeue 1 0, .enqueue 0 9 none, .finish 0 none, .dequeue 0 0, .finish 1 none, .wait 1]

theorem Alone.head?_running {v : View α} (h : Alone v) : v.serial.current.toList = v.running := by
  have hlen := h.length_le
  obtain ⟨running, inPool, own⟩ := v
  match running, hlen with
  | [], _           => rfl
  | [_], _          => rfl
  | _ :: _ :: _, hl => simp only [List.length_cons] at hl; omega

/-- What a step does to the tasks of a processor that have not finished. -/
theorem step_tasks {s t : System α} {a : Act α} (hs : Inv s) (h : step s a = some t) (q : Nat) :
    (s.view q).serial.tasks ++ enqueued q s a = finished q s a ++ (t.view q).serial.tasks := by
  have hchange := step_change h (hs q)
  have horder := Serial.exec_order (hchange.serial (hs q))
  obtain ⟨henqueued, _, hfinished⟩ := hchange.log (hs q)
  rw [henqueued, hfinished] at horder
  exact horder

/-- `Processor::join` returns iff no task is left. -/
theorem Alone.joins_iff {v : View α} (h : Alone v) : v.own.joins = true ↔ v.serial.tasks = [] := by
  obtain ⟨hlen, hrest⟩ := h
  rw [Serial.State.tasks, Alone.head?_running ⟨hlen, hrest⟩]
  simp only [View.serial, Processor.joins, Bool.and_eq_true, Bool.not_eq_true',
    List.isEmpty_iff, List.append_eq_nil_iff]
  refine ⟨?_, ?_⟩
  · rintro ⟨hpending, htasks⟩
    rw [if_neg (by simp [hpending])] at hlen
    refine ⟨?_, ?_, ?_, htasks⟩ <;> exact List.eq_nil_of_length_eq_zero (by omega)
  · rintro ⟨hrunning, hlost, hpool, htasks⟩
    refine ⟨?_, htasks⟩
    rw [hrunning, hlost, hpool] at hlen
    by_contra hpending
    rw [if_pos (by simpa using hpending)] at hlen
    exact absurd hlen (by simp)

/-- What the refinement says of the tasks themselves. -/
theorem serial_logs {as : List (Act α)} {s : System α} (h : exec step Any .init as = some s) (q : Nat) :
    collect step (started q) .init as = collect step (finished q) .init as ++ (s.view q).running ∧
      collect step (enqueued q) .init as =
        collect step (finished q) .init as ++ ((s.view q).running ++ (s.view q).serial.waiting) := by
  have hserial := processor_serial h q
  have hlog : ∀ (out : Serial.State α → Serial.Act α → List α) (out' : System α → Act α → List α),
      (∀ s a t, Inv s → step s a = some t →
        collect Serial.step out (s.view q).serial (label q s a).acts = out' s a) →
      collect Serial.step out Serial.idle (collect step (fun s a => (label q s a).acts) .init as) =
        collect step out' .init as := by
    intro out out' hout
    exact collect_project (f := fun s => (System.view s q).serial) (fun _ _ _ hs hstep => hs.kept hstep)
      (fun _ _ _ hs hstep => (step_change hstep (hs q)).serial (hs q)) hout inv_init h
  have hsubmitted := hlog Serial.submitted (enqueued q)
    fun s a t hs hstep => ((step_change hstep (hs q)).log (hs q)).1
  have hstarted := hlog Serial.started (started q)
    fun s a t hs hstep => ((step_change hstep (hs q)).log (hs q)).2.1
  have hfinished := hlog Serial.finished (finished q)
    fun s a t hs hstep => ((step_change hstep (hs q)).log (hs q)).2.2
  have halone := Serial.exec_alone hserial
  have horder := Serial.exec_order hserial
  have hrunning := ((inv_init.exec h) q).head?_running
  rw [hstarted, hfinished, hrunning] at halone
  rw [hsubmitted, hfinished, Serial.State.tasks, Serial.State.tasks, hrunning] at horder
  exact ⟨halone, horder⟩

/-- **One at a time, in order.** The tasks that started are those that finished and the one that runs, and with
    those that wait they are the tasks that were enqueued, in this order. -/
theorem tasks_in_order {as : List (Act α)} {s : System α} (h : exec step Any .init as = some s) (q : Nat) :
    collect step (started q) .init as = collect step (finished q) .init as ++ (s.view q).running ∧
      (s.view q).running.length ≤ 1 ∧
      collect step (started q) .init as ++ (s.view q).serial.waiting = collect step (enqueued q) .init as := by
  obtain ⟨hstarted, henqueued⟩ := serial_logs h q
  have hlen := ((inv_init.exec h) q).length_le
  refine ⟨hstarted, by omega, ?_⟩
  rw [hstarted, henqueued, List.append_assoc]

theorem tasks_in_order_errands :
    ∃ s, exec step Any .init errands = some s ∧
      (collect step (finished 0) .init errands = [7] ∧ (s.view 0).running = [8] ∧
        (s.view 0).serial.waiting = [9]) ∧
      collect step (started 0) .init errands = collect step (finished 0) .init errands ++ (s.view 0).running ∧
      (s.view 0).running.length ≤ 1 ∧
      collect step (started 0) .init errands ++ (s.view 0).serial.waiting =
        collect step (enqueued 0) .init errands :=
  ⟨_, rfl, by decide, tasks_in_order rfl 0⟩

/-- **`Processor::join` waits for every task.** It returns when all that was enqueued has finished, and only
    then. -/
theorem join_returns {as : List (Act α)} {s : System α} (h : exec step Any .init as = some s) (q : Nat) :
    (s.view q).own.joins = true ↔
      collect step (finished q) .init as = collect step (enqueued q) .init as := by
  rw [(serial_logs h q).2, List.self_eq_append_right]
  have hjoins := ((inv_init.exec h) q).joins_iff
  rw [Serial.State.tasks, ((inv_init.exec h) q).head?_running] at hjoins
  exact hjoins

theorem join_returns_errands :
    ∃ s, exec step Any .init (errands ++ [.finish 0 (some 1), .dequeue 0 0, .finish 0 none]) = some s ∧
      (s.view 0).own.joins = true ∧
      ((s.view 0).own.joins = true ↔
        collect step (finished 0) .init (errands ++ [.finish 0 (some 1), .dequeue 0 0, .finish 0 none]) =
          collect step (enqueued 0) .init (errands ++ [.finish 0 (some 1), .dequeue 0 0, .finish 0 none])) :=
  ⟨_, rfl, by decide, join_returns rfl 0⟩

/-- What was lost stays lost. -/
theorem Change.lost {v v' : View α} {l : Label α} (h : Change v l v') (hlost : v.own.lost ≠ []) :
    v'.own.lost ≠ [] := by
  cases h with
  | clear =>
      intro hnil
      exact hlost (List.append_eq_nil_iff.mp hnil).1
  | _ => exact hlost

/-- A processor that lost its task starts no other. -/
theorem Change.stuck {v v' : View α} {l : Label α} (h : Change v l v') (hv : Alone v) (hlost : v.own.lost ≠ []) :
    l.started = [] := by
  have hlen := hv.length_le
  have hpos := List.length_pos_of_ne_nil hlost
  cases h with
  | @dequeue before after before' after' task r =>
      have hpos' : 0 < r.lost.length := hpos
      simp only [List.length_append, List.length_singleton] at hlen
      omega
  | _ => rfl

/-- What the pool has of a processor when it is cleared is lost. -/
theorem clear_lost {s : System α} {q : Nat} (hv : Alone (s.view q)) (hq : (s.view q).inPool ≠ []) :
    (s.clear.view q).own.lost ≠ [] := by
  cases hr : s.processors[q]? with
  | none => exact absurd (hv.inPool_eq_nil hr) hq
  | some r =>
      intro hnil
      apply hq
      have hlost : (s.clear.view q).own.lost = (s.view q).own.lost ++ (s.view q).inPool := by
        simp [System.view, System.clear, List.getElem?_mapIdx, hr]
      rw [hlost] at hnil
      exact (List.append_eq_nil_iff.mp hnil).2

/-- **`ThreadPool::clear` is for good.** A processor that has a task in the pool when it is cleared starts no task
    any more, and to join it takes for ever. -/
theorem clear_never_joins {as bs : List (Act α)} {s t : System α} (h : exec step Any .init as = some s) (q : Nat)
    (hq : (s.view q).inPool ≠ []) (h' : exec step Any s (.clear :: bs) = some t) :
    (t.view q).own.joins = false ∧ collect step (started q) s (.clear :: bs) = [] := by
  let I : System α → Prop := fun s => Inv s ∧ (s.view q).own.lost ≠ []
  have hI : ∀ s a t, I s → step s a = some t → I t := by
    rintro s a t ⟨hs, hlost⟩ hstep
    exact ⟨hs.kept hstep, (step_change hstep (hs q)).lost hlost⟩
  have hinv := inv_init.exec h
  have hclear : I s.clear := ⟨hinv.kept (a := .clear) rfl, clear_lost (hinv q) hq⟩
  have h' : exec step Any s.clear bs = some t := h'
  refine ⟨?_, ?_⟩
  · obtain ⟨ht, hlost⟩ := (Path.of_exec h').invariant (fun s a t hs _ hstep => hI s a t hs hstep) hclear
    have hlen := (ht q).1
    have hpos := List.length_pos_of_ne_nil hlost
    split at hlen
    · rename_i hpending
      simp [Processor.joins, hpending]
    · omega
  · exact collect_eq_nil hI (fun s a t hs hstep => (step_change hstep (hs.1 q)).stuck (hs.1 q) hs.2) hclear bs

theorem clear_never_joins_errands :
    ∃ s t, exec step Any .init (errands.take 11) = some s ∧ (s.view 0).inPool = [8] ∧
      exec step Any s [.clear, .enqueue 0 10 none, .finish 1 none] = some t ∧
      (t.view 0).own.joins = false ∧
      collect step (started 0) s [.clear, .enqueue 0 10 none, .finish 1 none] = [] :=
  ⟨_, _, rfl, by decide, rfl, @clear_never_joins _ (errands.take 11) _ _ _ rfl 0 (by decide) rfl⟩

end HxDatachannel.Threads
