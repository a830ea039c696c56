import HxDatachannel.Base.Lts
import HxDatachannel.Base.Fifo
import HxDatachannel.Base.Pool
import HxDatachannel.Binding.CallbackResult

/-!
# `EventLoop.Defs` — threads, locks and tokens around the two queues

The concurrent model of `datachannel.c`: any number of threads, each a stack of C calls in progress,
over the global synchronisation objects and the two linked lists. A step is the part of a thread's work
between two operations on shared state:

* a native callback acquires `callback_result_mutex`, queues its node, unlocks, and, when the node is a
  `callback_result`, releases `callback_result_semaphore` once;
* `process_events` first drains `datachannel_callbacks` under the mutex, then repeats: try to take a
  token, pop the head of `callback_results` under the mutex, call the closure. The Haxe code it calls may
  do anything the API allows, also call `process_events` again, or throw out of it;
* `RTC.init` and `RTC.finalize` allocate and free the objects, guarded by `RTC.inited`.

What a thread does while it holds the mutex is one step together with the unlock: no other thread can
look at the lists before. The lists are queues here; `Lists.Refine` shows the pointers to implement them. An operation on an object that is NULL or freed ends the run in a state with
`fault` set.
-/

namespace HxDatachannel
namespace EventLoop

/-! ## Frames -/

/-- What is done under `callback_result_mutex`. -/
inductive Section where
  | append (p : Post)
  | popAnnouncement
  | popResult
deriving DecidableEq, Repr

/-- How far a thread is with entering its critical section: before the call of `hl_mutex_acquire`,
    inside it (waiting for the mutex object `m` it was called on), or past it. -/
inductive LockStage where
  | start
  | waiting (m : Nat)
  | locked
deriving DecidableEq, Repr

/-- A C call in progress, by what it does next. -/
inductive Frame where
  /-- Entering, waiting for or inside a critical section. -/
  | locking (s : Section) (stage : LockStage)
  /-- A callback after its unlock: `hl_semaphore_release` is next. -/
  | release
  /-- `process_events`, first loop: makes the wrapper of a popped channel and calls `datachannelCb`. -/
  | announcing (d : DatachannelCallback)
  /-- `process_events`, second loop: `hl_semaphore_try_acquire` is next. -/
  | poll
  /-- A node was popped, its closure is called next. -/
  | popped (r : CallbackResult)
  /-- Inside `hl_dyn_call` of the closure. -/
  | handling (r : CallbackResult)
deriving DecidableEq, Repr

/-- The frames on top of which foreign code runs (Haxe handlers, libdatachannel): from there a thread can
    enter any API function or callback. -/
def Frame.isOpen : Frame → Bool
  | .announcing _ => true
  | .handling _   => true
  | _             => false

/-- A thread is free to start a call: nothing of the binding is running, or foreign code is on top. -/
def free : List Frame → Bool
  | []     => true
  | f :: _ => f.isOpen

/-! ## Shared state -/

/-- A mutex object: its identity and whether some thread is inside. -/
structure Mutex where
  id   : Nat
  held : Bool
deriving DecidableEq, Repr

/-- The globals of `datachannel.c` and of `RTC`. A semaphore is its count. The last three fields are
    bookkeeping: the next mutex identity, the nodes whose closure was called, and the fault flag. -/
structure Globals where
  inited                          : Bool
  connections                     : Nat
  callback_result_mutex           : Option Mutex
  callback_result_semaphore       : Option Nat
  datachannel_callbacks_semaphore : Option Nat
  callback_results                : Fifo CallbackResult
  datachannel_callbacks           : Fifo DatachannelCallback
  nextMutex                       : Nat
  dispatched                      : List CallbackResult
  fault                           : Bool
deriving DecidableEq, Repr

/-- The program before the first `RTC.init`. -/
def Globals.blank : Globals :=
  { inited := false, connections := 0, callback_result_mutex := none,
    callback_result_semaphore := none, datachannel_callbacks_semaphore := none,
    callback_results := .empty, datachannel_callbacks := .empty, nextMutex := 0, dispatched := [],
    fault := false }

/-- `HL_NAME(initialize)`: each object is allocated if it is NULL. -/
def Globals.initialize (g : Globals) : Globals :=
  { g with
    callback_result_mutex :=
      match g.callback_result_mutex with
      | none   => some ⟨g.nextMutex, false⟩
      | some m => some m
    nextMutex := g.nextMutex + 1
    callback_result_semaphore :=
      match g.callback_result_semaphore with
      | none   => some 0
      | some n => some n
    datachannel_callbacks_semaphore :=
      match g.datachannel_callbacks_semaphore with
      | none   => some 0
      | some n => some n }

/-- `HL_NAME(finalize)`: each object is freed and its global set to NULL; the lists are not touched. -/
def Globals.finalize (g : Globals) : Globals :=
  { g with
    callback_result_mutex := none
    callback_result_semaphore := none
    datachannel_callbacks_semaphore := none }

/-- `RTC.init`. -/
def Globals.init (g : Globals) : Globals :=
  if !g.inited then { g.initialize with inited := true } else g

/-- `RTC.finalize`. -/
def Globals.fini (g : Globals) : Globals :=
  if g.inited then { g.finalize with inited := false } else g

/-- `new RTCPeerConnection`: throws unless the module is initialised, else registers the callbacks. They
    stay registered: closing a connection or channel does not take them back. -/
def Globals.create (g : Globals) : Globals :=
  if !g.inited then g else { g with connections := g.connections + 1 }

/-- The number of tokens that can be taken; a semaphore that does not exist has none. -/
def Globals.tokens (g : Globals) : Nat := g.callback_result_semaphore.getD 0

/-! ## Steps -/

/-- What a thread does next. -/
inductive Act where
  | init
  | finalize
  | create
  /-- A native callback starts on this thread. -/
  | fire (c : NativeCallback)
  /-- The Haxe code calls `RTC.processEvents`. -/
  | call
  /-- `hl_mutex_acquire` is called. -/
  | acquire
  /-- `hl_mutex_acquire` returns. -/
  | obtain
  /-- The critical section and `hl_mutex_release`. -/
  | unlock
  /-- `hl_semaphore_release`. -/
  | release
  /-- `hl_semaphore_try_acquire`. -/
  | tryAcquire
  /-- The popped node's closure is called. -/
  | dispatch
  /-- The closure returns. -/
  | ret
  /-- The closure throws; the exception leaves `process_events`. -/
  | throw
deriving DecidableEq, Repr

/-- The effect of a critical section on the lists, and the frames the call goes on with. -/
def Section.run (g : Globals) : Section → Globals × List Frame
  | .append (.result r) =>
      ({ g with callback_results := g.callback_results.push r }, [.release])
  | .append (.announcement d) =>
      ({ g with datachannel_callbacks := g.datachannel_callbacks.push d }, [])
  | .popAnnouncement =>
      match g.datachannel_callbacks.pop with
      | some (d, q) => ({ g with datachannel_callbacks := q }, [.announcing d])
      -- the first loop ends, the second begins
      | none        => (g, [.poll])
  | .popResult =>
      match g.callback_results.pop with
      | some (r, q) => ({ g with callback_results := q }, [.popped r])
      -- a token without a node: `process_events` returns
      | none        => (g, [])

/-- A critical section touches the two lists and nothing else. -/
theorem run_eq (g : Globals) (s : Section) :
    (s.run g).1 = { g with
      callback_results := (s.run g).1.callback_results
      datachannel_callbacks := (s.run g).1.datachannel_callbacks } := by
  cases s with
  | append p => cases p <;> rfl
  | popAnnouncement => simp only [Section.run]; split <;> rfl
  | popResult => simp only [Section.run]; split <;> rfl

@[simp] theorem run_inited (g : Globals) (s : Section) : (s.run g).1.inited = g.inited := by
  rw [run_eq]

@[simp] theorem run_fault (g : Globals) (s : Section) : (s.run g).1.fault = g.fault := by
  rw [run_eq]

@[simp] theorem run_semaphore (g : Globals) (s : Section) :
    (s.run g).1.callback_result_semaphore = g.callback_result_semaphore := by
  rw [run_eq]

@[simp] theorem run_dispatched (g : Globals) (s : Section) :
    (s.run g).1.dispatched = g.dispatched := by
  rw [run_eq]

/-- An operation on an object that does not exist. -/
def fail (g : Globals) (stack : List Frame) : Option (Globals × List Frame) :=
  some ({ g with fault := true }, stack)

/-- One step of a thread whose calls in progress are `stack`, the innermost first. -/
def act (g : Globals) (stack : List Frame) : Act → Option (Globals × List Frame)
  | .init     => if free stack then some (g.init, stack) else none
  | .finalize => if free stack then some (g.fini, stack) else none
  | .create   => if free stack then some (g.create, stack) else none
  | .fire c =>
      if free stack ∧ 0 < g.connections then
        match c.post with
        | some p => some (g, .locking (.append p) .start :: stack)
        -- `openCallback` returns at once while `openCb` is NULL
        | none   => some (g, stack)
      else none
  | .call => if free stack then some (g, .locking .popAnnouncement .start :: stack) else none
  | .acquire =>
      match stack with
      | .locking s .start :: rest =>
          match g.callback_result_mutex with
          | some m => some (g, .locking s (.waiting m.id) :: rest)
          | none   => fail g stack
      | _ => none
  | .obtain =>
      match stack with
      | .locking s (.waiting i) :: rest =>
          match g.callback_result_mutex with
          | some m =>
              -- the mutex this thread waits for was freed, and another one allocated
              if m.id ≠ i then fail g stack
              else if m.held then none
              else some ({ g with callback_result_mutex := some { m with held := true } },
                         .locking s .locked :: rest)
          | none => fail g stack
      | _ => none
  | .unlock =>
      match stack with
      | .locking s .locked :: rest =>
          match g.callback_result_mutex with
          | some m =>
              some ({ (s.run g).1 with callback_result_mutex := some { m with held := false } },
                    (s.run g).2 ++ rest)
          | none => fail g stack
      | _ => none
  | .release =>
      match stack with
      | .release :: rest =>
          match g.callback_result_semaphore with
          | some n => some ({ g with callback_result_semaphore := some (n + 1) }, rest)
          | none   => fail g stack
      | _ => none
  | .tryAcquire =>
      match stack with
      | .poll :: rest =>
          match g.callback_result_semaphore with
          | some 0       => some (g, rest)
          | some (n + 1) =>
              some ({ g with callback_result_semaphore := some n },
                    .locking .popResult .start :: rest)
          | none => fail g stack
      | _ => none
  | .dispatch =>
      match stack with
      | .popped r :: rest =>
          some ({ g with dispatched := g.dispatched ++ [r] }, .handling r :: rest)
      | _ => none
  | .ret =>
      match stack with
      | .announcing _ :: rest => some (g, .locking .popAnnouncement .start :: rest)
      -- `free(res)`, and round again
      | .handling _ :: rest   => some (g, .poll :: rest)
      | _ => none
  | .throw =>
      match stack with
      | f :: rest => if f.isOpen then some (g, rest) else none
      | _ => none

/-- The whole program: the globals and the threads. -/
structure State where
  globals : Globals
  threads : List (List Frame)
deriving DecidableEq, Repr

/-- A step of the program: a new thread, or a step of thread `i`. -/
inductive Label where
  | spawn
  | step (i : Nat) (a : Act)
deriving DecidableEq, Repr

def step (s : State) : Label → Option State
  | .spawn => some { s with threads := s.threads ++ [[]] }
  | .step i a =>
      if s.globals.fault then none
      else match s.threads[i]? with
        | some stack =>
            (act s.globals stack a).map fun out => ⟨out.1, s.threads.set i out.2⟩
        | none => none

/-- The start of the program. -/
def State.blank : State := ⟨.blank, []⟩

/-! ## Who holds what -/

/-- A consumer between `try_acquire` and its pop. -/
def Frame.claims : Frame → Nat
  | .locking .popResult _ => 1
  | _ => 0

/-- A producer between its unlock and its release. -/
def Frame.owes : Frame → Nat
  | .release => 1
  | _ => 0

/-- Consumers between `try_acquire` and pop, over all threads. -/
def State.claimed (s : State) : Nat := Pool.tally Frame.claims s.threads

/-- Producers between unlock and release, over all threads. -/
def State.owed (s : State) : Nat := Pool.tally Frame.owes s.threads

end EventLoop
end HxDatachannel
