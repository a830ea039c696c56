import HxDatachannel.Base.Lts

/-!
# `Base.Serial` — a serial executor

What a queue of tasks with one thread does, whoever its threads are: tasks are submitted, and one at a time
they start and finish, in the order of submission.

## Contents
- **The machine.** `State`, `Act`, `step`.
- **Its laws.** `exec_order`: what has finished, what runs and what waits is what was submitted, in order;
  `exec_alone`: what has started has finished, but for the last.
-/

namespace Serial

open Lts

variable {α : Type}

structure State (α : Type) where
  current : Option α
  waiting : List α
deriving DecidableEq, Repr

inductive Act (α : Type) where
  | submit (task : α)
  | start
  | finish
deriving DecidableEq, Repr

def idle : State α := ⟨none, []⟩

/-- One step; a task starts only when no other runs. -/
def step (s : State α) : Act α → Option (State α)
  | .submit task => some { s with waiting := s.waiting ++ [task] }
  | .start       =>
      match s.current, s.waiting with
      | none, task :: tasks => some ⟨some task, tasks⟩
      | _, _                => none
  | .finish      =>
      match s.current with
      | some _ => some { s with current := none }
      | none   => none

/-- What is inside, in the order of submission. -/
def State.tasks (s : State α) : List α := s.current.toList ++ s.waiting

def submitted (_ : State α) : Act α → List α
  | .submit task => [task]
  | _            => []

def started (s : State α) : Act α → List α
  | .start => s.waiting.take 1
  | _      => []

def finished (s : State α) : Act α → List α
  | .finish => s.current.toList
  | _       => []

theorem step_flow (s : State α) (a : Act α) (t : State α) (h : step s a = some t) :
    s.tasks ++ submitted s a = finished s a ++ t.tasks := by
  cases a with
  | submit task =>
      simp only [step, Option.some.injEq] at h
      subst h
      simp [State.tasks, submitted, finished]
  | start =>
      simp only [step] at h
      split at h
      · rename_i task tasks hcurrent hwaiting
        obtain rfl := Option.some.inj h
        simp [State.tasks, submitted, finished, hcurrent, hwaiting]
      · exact absurd h (by simp)
  | finish =>
      simp only [step] at h
      split at h
      · obtain rfl := Option.some.inj h
        simp [State.tasks, submitted, finished]
      · exact absurd h (by simp)

theorem step_current (s : State α) (a : Act α) (t : State α) (h : step s a = some t) :
    s.current.toList ++ started s a = finished s a ++ t.current.toList := by
  cases a with
  | submit task =>
      simp only [step, Option.some.injEq] at h
      subst h
      simp [started, finished]
  | start =>
      simp only [step] at h
      split at h
      · rename_i task tasks hcurrent hwaiting
        obtain rfl := Option.some.inj h
        simp [started, finished, hcurrent, hwaiting]
      · exact absurd h (by simp)
  | finish =>
      simp only [step] at h
      split at h
      · obtain rfl := Option.some.inj h
        simp [started, finished]
      · exact absurd h (by simp)

/-- **Serial order.** What was inside and what was submitted is what has finished and what is inside. -/
theorem exec_order {s t : State α} {as : List (Act α)} (h : exec step Any s as = some t) :
    s.tasks ++ collect step submitted s as = collect step finished s as ++ t.tasks :=
  exec_flow step_flow h

/-- **One at a time.** -/
theorem exec_alone {s t : State α} {as : List (Act α)} (h : exec step Any s as = some t) :
    s.current.toList ++ collect step started s as = collect step finished s as ++ t.current.toList :=
  exec_flow step_current h

end Serial
