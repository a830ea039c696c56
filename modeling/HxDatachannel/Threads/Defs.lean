import HxDatachannel.Base.Lts

/-!
# `Threads.Defs` — the thread pool and its processors

`ThreadPool` runs functions at their times on a number of workers; `Processor` runs its tasks one after the
other, by giving the pool the next one when the last one has returned.

A step is what a thread does while it holds `mMutex` of the pool (and of the processor it works for). A worker
that has been woken takes the lock, and a worker that is `ready` has it or is about to take it. Which of several
functions with the least time a priority queue gives, and which worker `notify_one` wakes, comes with the step.
A function that throws returns: the pool catches it, and `scope_guard` chains the next task all the same.
-/

namespace HxDatachannel.Threads

variable {α : Type}

/-- What the pool is given: a task of a processor, which chains the next one, or a function of its own. -/
inductive Func (α : Type) where
  | processor (q : Nat) (task : α)
  | other (task : α)
deriving DecidableEq, Repr

/-- `ThreadPool::Task`. -/
structure Task (α : Type) where
  time : Nat
  func : Func α
deriving DecidableEq, Repr

/-- Where a worker is in `run`. `waiting` has the time of `wait_until`, or none for `wait`. -/
inductive Worker (α : Type) where
  | spawned
  | ready
  | waiting (time : Option Nat)
  | woken
  | busy (func : Func α)
  | exited
deriving DecidableEq, Repr

structure ThreadPool (α : Type) where
  /-- `clock::now()`. -/
  now          : Nat
  mWorkers     : List (Worker α)
  mBusyWorkers : Int
  mJoining     : Bool
  mTasks       : List (Task α)
deriving DecidableEq, Repr

/-- `lost` is bookkeeping: the task of the processor that `ThreadPool::clear` took away. -/
structure Processor (α : Type) where
  mTasks   : List α
  mPending : Bool
  lost     : List α
deriving DecidableEq, Repr

/-- The pool and the processors made so far. -/
structure System (α : Type) where
  pool       : ThreadPool α
  processors : List (Processor α)
deriving DecidableEq, Repr

def ThreadPool.init : ThreadPool α :=
  { now := 0, mWorkers := [], mBusyWorkers := 0, mJoining := false, mTasks := [] }

def Processor.init : Processor α := { mTasks := [], mPending := false, lost := [] }

def System.init : System α := { pool := .init, processors := [] }

def Worker.isWaiting : Worker α → Bool
  | .waiting _ => true
  | _          => false

def Worker.isExited : Worker α → Bool
  | .exited => true
  | _       => false

/-- The task, when the function is one of this processor. -/
def Func.of (q : Nat) : Func α → Option α
  | .processor q' task => if q' = q then some task else none
  | .other _           => none

def Worker.of (q : Nat) : Worker α → Option α
  | .busy func => func.of q
  | _          => none

def Task.of (q : Nat) (task : Task α) : Option α := task.func.of q

/-! ## The pool -/

/-- `mTasksCondition.notify_one`: some worker that waits, if one does. -/
def ThreadPool.notify_one (p : ThreadPool α) : Option Nat → Option (ThreadPool α)
  | none   => if p.mWorkers.any Worker.isWaiting then none else some p
  | some i =>
      match p.mWorkers[i]? with
      | some (.waiting _) => some { p with mWorkers := p.mWorkers.set i .woken }
      | _                 => none

def ThreadPool.schedule (p : ThreadPool α) (time : Nat) (func : Func α) (notified : Option Nat) :
    Option (ThreadPool α) :=
  ({ p with mTasks := p.mTasks ++ [{ time, func }] } : ThreadPool α).notify_one notified

def ThreadPool.enqueue (p : ThreadPool α) (func : Func α) (notified : Option Nat) : Option (ThreadPool α) :=
  p.schedule p.now func notified

/-- `mTasks.top().time`. -/
def ThreadPool.top (p : ThreadPool α) : Option Nat := (p.mTasks.map Task.time).min?

def ThreadPool.spawn (p : ThreadPool α) (count : Nat) : ThreadPool α :=
  { p with mWorkers := p.mWorkers ++ List.replicate count .spawned }

/-- The beginning of `run`. -/
def ThreadPool.start (p : ThreadPool α) (i : Nat) : Option (ThreadPool α) :=
  match p.mWorkers[i]? with
  | some .spawned => some { p with mWorkers := p.mWorkers.set i .ready, mBusyWorkers := p.mBusyWorkers + 1 }
  | _             => none

/-- `dequeue` where it takes the function of task `j`, whose time has come. -/
def ThreadPool.dequeue (p : ThreadPool α) (i j : Nat) : Option (ThreadPool α) :=
  match p.mWorkers[i]?, p.mTasks[j]? with
  | some .ready, some task =>
      if p.mJoining = false ∧ p.top = some task.time ∧ task.time ≤ p.now then
        some { p with mWorkers := p.mWorkers.set i (.busy task.func), mTasks := p.mTasks.eraseIdx j }
      else none
  | _, _ => none

/-- `dequeue` where it waits, until the time of the first task if there is one. -/
def ThreadPool.wait (p : ThreadPool α) (i : Nat) : Option (ThreadPool α) :=
  match p.mWorkers[i]? with
  | some .ready =>
      if p.mJoining = false ∧ ∀ time ∈ p.top, p.now < time then
        some { p with mWorkers := p.mWorkers.set i (.waiting p.top), mBusyWorkers := p.mBusyWorkers - 1 }
      else none
  | _           => none

/-- The wait is over because of `notify_one` or `notify_all`, or because the time has come. -/
def ThreadPool.wake (p : ThreadPool α) (i : Nat) : Option (ThreadPool α) :=
  let awake := some { p with mWorkers := p.mWorkers.set i .ready, mBusyWorkers := p.mBusyWorkers + 1 }
  match p.mWorkers[i]? with
  | some .woken                 => awake
  | some (.waiting (some time)) => if time ≤ p.now then awake else none
  | _                           => none

/-- The wait is over for no reason, as a condition variable may have it. -/
def ThreadPool.wakeSpuriously (p : ThreadPool α) (i : Nat) : Option (ThreadPool α) :=
  match p.mWorkers[i]? with
  | some (.waiting _) => some { p with mWorkers := p.mWorkers.set i .ready, mBusyWorkers := p.mBusyWorkers + 1 }
  | _                 => none

/-- `dequeue` where it returns `nullptr`, and with it `run`. -/
def ThreadPool.leave (p : ThreadPool α) (i : Nat) : Option (ThreadPool α) :=
  match p.mWorkers[i]? with
  | some .ready =>
      if p.mJoining then
        some { p with mWorkers := p.mWorkers.set i .exited, mBusyWorkers := p.mBusyWorkers - 1 }
      else none
  | _           => none

/-- What `notify_all` makes of a worker. -/
def Worker.notify : Worker α → Worker α
  | .waiting _ => .woken
  | w          => w

/-- `join` up to the place where it waits for the threads. -/
def ThreadPool.join (p : ThreadPool α) : Option (ThreadPool α) :=
  if p.mBusyWorkers = 0 ∧ p.mJoining = false then
    some { p with mJoining := true, mWorkers := p.mWorkers.map Worker.notify }
  else none

/-- The end of `join`. -/
def ThreadPool.joined (p : ThreadPool α) : Option (ThreadPool α) :=
  if p.mJoining ∧ p.mWorkers.all Worker.isExited then
    some { p with mWorkers := [], mJoining := false }
  else none

def ThreadPool.clear (p : ThreadPool α) : ThreadPool α := { p with mTasks := [] }

/-! ## The processors -/

/-- `Processor::enqueue` of processor `q`. -/
def Processor.enqueue (r : Processor α) (p : ThreadPool α) (q : Nat) (task : α) (notified : Option Nat) :
    Option (Processor α × ThreadPool α) :=
  if r.mPending then some ({ r with mTasks := r.mTasks ++ [task] }, p)
  else (p.enqueue (.processor q task) notified).map fun p => ({ r with mPending := true }, p)

/-- `Processor::schedule` of processor `q`. -/
def Processor.schedule (r : Processor α) (p : ThreadPool α) (q : Nat) (notified : Option Nat) :
    Option (Processor α × ThreadPool α) :=
  match r.mTasks with
  | next :: tasks =>
      (p.enqueue (.processor q next) notified).map fun p => ({ r with mTasks := tasks }, p)
  | []            => some ({ r with mPending := false }, p)

/-- `Processor::join` returns. -/
def Processor.joins (r : Processor α) : Bool := !r.mPending && r.mTasks.isEmpty

/-! ## Steps -/

inductive Act (α : Type) where
  /-- Time passes. -/
  | tick (now : Nat)
  | spawn (count : Nat)
  /-- A processor is made. -/
  | processor
  | enqueue (q : Nat) (task : α) (notified : Option Nat)
  | schedule (time : Nat) (task : α) (notified : Option Nat)
  | start (i : Nat)
  | dequeue (i j : Nat)
  | wait (i : Nat)
  | wake (i : Nat)
  | wakeSpuriously (i : Nat)
  /-- The function of a worker returns, and the worker with it to `runOne`. -/
  | finish (i : Nat) (notified : Option Nat)
  | leave (i : Nat)
  | join
  | joined
  | clear
deriving DecidableEq, Repr

/-- A step of processor `q` with the pool. -/
def System.at (s : System α) (q : Nat)
    (f : Processor α → ThreadPool α → Option (Processor α × ThreadPool α)) : Option (System α) :=
  match s.processors[q]? with
  | none   => none
  | some r => (f r s.pool).map fun (r, p) => { pool := p, processors := s.processors.set q r }

/-- The end of the function of worker `i`. -/
def System.finish (s : System α) (i : Nat) (notified : Option Nat) : Option (System α) :=
  match s.pool.mWorkers[i]? with
  | some (.busy func) =>
      let s := { s with pool := { s.pool with mWorkers := s.pool.mWorkers.set i .ready } }
      match func with
      | .processor q _ => s.at q fun r p => r.schedule p q notified
      | .other _       => some s
  | _                 => none

/-- `ThreadPool::clear`, with what each processor loses by it. -/
def System.clear (s : System α) : System α :=
  { pool := s.pool.clear,
    processors := s.processors.mapIdx fun q r => { r with lost := r.lost ++ s.pool.mTasks.filterMap (Task.of q) } }

/-- A step of the pool alone. -/
def System.setPool (s : System α) (p : ThreadPool α) : System α := { s with pool := p }

/-- One step of the system; `none` when it is not enabled. -/
def step (s : System α) : Act α → Option (System α)
  | .tick now                    => if s.pool.now ≤ now then some (s.setPool { s.pool with now }) else none
  | .spawn count                 => some (s.setPool (s.pool.spawn count))
  | .processor                   => some { s with processors := s.processors ++ [.init] }
  | .enqueue q task notified     => s.at q fun r p => r.enqueue p q task notified
  | .schedule time task notified => (s.pool.schedule time (.other task) notified).map s.setPool
  | .start i                     => (s.pool.start i).map s.setPool
  | .dequeue i j                 => (s.pool.dequeue i j).map s.setPool
  | .wait i                      => (s.pool.wait i).map s.setPool
  | .wake i                      => (s.pool.wake i).map s.setPool
  | .wakeSpuriously i            => (s.pool.wakeSpuriously i).map s.setPool
  | .finish i notified           => s.finish i notified
  | .leave i                     => (s.pool.leave i).map s.setPool
  | .join                        => s.pool.join.map s.setPool
  | .joined                      => s.pool.joined.map s.setPool
  | .clear                       => some s.clear

end HxDatachannel.Threads
