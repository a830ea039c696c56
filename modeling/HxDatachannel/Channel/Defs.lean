import HxDatachannel.Base.Fifo
import HxDatachannel.Base.Lts
import HxDatachannel.Binding.CallbackResult
import Mathlib.Logic.Function.Basic

/-!
# `Channel.Defs` — one data channel, native side and wrapper

A data channel lives on both sides of the binding. Natively it is a libdatachannel `Channel`: flags, five
callback slots, a receive queue and the loops that flush it. On the Haxe side it is a wrapper that
`hl_rtc_make_datachannel` builds in several native calls, followed by `set_datachannel_callbacks` and, for
an incoming channel, by `dc.state = Open`. `Chan.act` is one step of either side, with the event it
queues; the steps of native threads and of the Haxe thread interleave freely.

`Lane` puts a channel together with its own events in the queue of events.
-/

namespace HxDatachannel

/-! ## Callback slots -/

/-- `synchronized_stored_callback`: whether a callback is set, and the arguments of the last call that
    found none. -/
structure StoredCallback (α : Type) where
  callback : Bool
  stored   : Option α
deriving DecidableEq, Repr

namespace StoredCallback

variable {α : Type}

def none : StoredCallback α := ⟨false, .none⟩

/-- `call`: runs the callback, or stores the arguments. The second component says what was run. -/
def call (c : StoredCallback α) (a : α) : StoredCallback α × Option α :=
  if c.callback then (c, some a) else ({ c with stored := some a }, .none)

/-- `set` with a function: a stored call is replayed and forgotten. -/
def set (c : StoredCallback α) : StoredCallback α × Option α :=
  (⟨true, .none⟩, c.stored)

/-- `set` with `nullptr`. -/
def unset (c : StoredCallback α) : StoredCallback α := { c with callback := false }

@[simp] theorem call_callback (c : StoredCallback α) (a : α) : (c.call a).1.callback = c.callback := by
  unfold call; split <;> rfl

theorem call_of_set {c : StoredCallback α} (h : c.callback = true) (a : α) :
    c.call a = (c, some a) := by
  rw [call, if_pos h]

theorem call_of_unset {c : StoredCallback α} (h : c.callback = false) (a : α) :
    c.call a = ({ c with stored := some a }, .none) := by
  rw [call, if_neg (by simp [h])]

/-- A call that ran the callback found one. -/
theorem callback_of_call {c : StoredCallback α} {a b : α} (h : (c.call a).2 = some b) :
    c.callback = true := by
  cases hc : c.callback with
  | true => rfl
  | false => rw [call_of_unset hc] at h; exact absurd h (by simp)

@[simp] theorem set_callback (c : StoredCallback α) : c.set.1.callback = true := rfl
@[simp] theorem set_stored (c : StoredCallback α) : c.set.1.stored = .none := rfl
@[simp] theorem set_replay (c : StoredCallback α) : c.set.2 = c.stored := rfl
@[simp] theorem unset_callback (c : StoredCallback α) : c.unset.callback = false := rfl

end StoredCallback

/-! ## The channel -/

/-- A message as libdatachannel hands it to the callback. -/
structure Message where
  data : Bytes
  size : Int
deriving DecidableEq, Repr

inductive RTCDataChannelState where
  | Closed
  | Open
  | Error
deriving DecidableEq, Repr

/-- How far the wrapper is. Each stage is named by the last thing done: the user pointer, then the five
    registrations of `hl_rtc_make_datachannel`, then the constructor with `set_datachannel_callbacks`, and
    for an incoming channel the rest of the `onDataChannel` closure. -/
inductive Wrapper where
  | unmade
  | userPointer
  | openCallback
  | closedCallback
  | errorCallback
  | messageCallback
  | bufferedAmountLowCallback
  | installed
  | announced
deriving DecidableEq, Repr

/-- The order of the stages. -/
def Wrapper.rank : Wrapper → Nat
  | .unmade                    => 0
  | .userPointer               => 1
  | .openCallback              => 2
  | .closedCallback            => 3
  | .errorCallback             => 4
  | .messageCallback           => 5
  | .bufferedAmountLowCallback => 6
  | .installed                 => 7
  | .announced                 => 8

/-- A thread in `flushPendingMessages`: about to test `mOpenTriggered`, about to test `messageCallback`,
    about to call `receive`, or about to call the callback with the message it received. -/
inductive Loop where
  | idle
  | due
  | looping
  | receiving
  | holding
deriving DecidableEq, Repr

/-- A data channel. Threads are numbered; thread 0 is the Haxe thread. `hand` lists the messages that are
    out of the receive queue and not yet given to the callback, each with the thread that has it, in the
    order in which they were taken. The last three fields are bookkeeping: whether `triggerOpen` and
    `resetCallbacks` ran, and the messages accepted so far. -/
structure Chan where
  pc                        : Nat
  label                     : Bytes
  incoming                  : Bool
  mIsOpen                   : Bool
  mIsClosed                 : Bool
  mOpenTriggered            : Bool
  openCallback              : StoredCallback Unit
  closedCallback            : StoredCallback Unit
  errorCallback             : StoredCallback Bytes
  bufferedAmountLowCallback : StoredCallback Unit
  messageCallback           : Bool
  mRecvQueue                : List Message
  loop                      : Nat → Loop
  hand                      : List (Nat × Message)
  wrapper                   : Wrapper
  state                     : RTCDataChannelState
  opened                    : Bool
  callbacksReset            : Bool
  arrived                   : List Message

/-- A channel as it comes into being. An incoming channel has received its open message. -/
def Chan.fresh (pc : Nat) (label : Bytes) (incoming : Bool) : Chan :=
  { pc, label, incoming, mIsOpen := incoming, mIsClosed := false, mOpenTriggered := false,
    openCallback := .none, closedCallback := .none, errorCallback := .none,
    bufferedAmountLowCallback := .none, messageCallback := false, mRecvQueue := [],
    loop := fun _ => .idle, hand := [], wrapper := .unmade, state := .Closed, opened := false,
    callbacksReset := false, arrived := [] }

/-- The closures are stored in the wrapper: `openCb` and its siblings are not NULL. -/
def Chan.installed (c : Chan) : Bool := 7 ≤ c.wrapper.rank

/-- Nothing is left to do for the wrapper. -/
def Chan.finished (c : Chan) : Bool :=
  c.wrapper = .announced || (c.wrapper = .installed && !c.incoming)

/-! ## Steps -/

/-- What happens to a channel: on native threads, and (`make`) on the Haxe thread. `buffer` is the content
    of the stack buffer that receives a label. -/
inductive ChanAct where
  /-- `triggerOpen` on thread `i`. -/
  | triggerOpen (i : Nat) (buffer : Bytes)
  /-- `close`, up to and with `triggerClosed`. -/
  | close
  /-- The end of `close`: `resetCallbacks`. -/
  | resetCallbacks
  | triggerError (error : Bytes)
  | triggerBufferedAmountLow
  /-- `incoming` with a string or binary message, on thread `i`. -/
  | incoming (i : Nat) (m : Message)
  /-- The next step of thread `i` in `flushPendingMessages`. -/
  | flushPendingMessages (i : Nat)
  /-- The next stage of the wrapper. -/
  | make (buffer : Bytes)
deriving DecidableEq, Repr

/-- The next step of thread `i` in `flushPendingMessages`. -/
def Chan.flush (d : Nat) (c : Chan) (i : Nat) : Option (Chan × Option CallbackResult) :=
  match c.loop i with
  | .idle => none
  | .due =>
      -- `if (!mOpenTriggered) return;`
      some ({ c with loop := Function.update c.loop i (if c.mOpenTriggered then .looping else .idle) },
        none)
  | .looping =>
      -- `while (messageCallback)`
      some ({ c with loop := Function.update c.loop i (if c.messageCallback then .receiving else .idle) },
        none)
  | .receiving =>
      match c.mRecvQueue with
      | []        => some ({ c with loop := Function.update c.loop i .idle }, none)
      | m :: rest =>
          some ({ c with mRecvQueue := rest, hand := c.hand ++ [(i, m)],
                         loop := Function.update c.loop i .holding }, none)
  | .holding =>
      match c.hand.find? (fun p => p.1 = i) with
      | some (_, m) =>
          some ({ c with hand := c.hand.eraseP (fun p => p.1 = i),
                         loop := Function.update c.loop i .looping },
            if c.messageCallback then some (HxDatachannel.messageCallback d m.data m.size) else none)
      | none => none

/-- The next stage of the wrapper of channel `d`. -/
def Chan.make (d : Nat) (c : Chan) (buffer : Bytes) : Option (Chan × Option CallbackResult) :=
  match c.wrapper with
  | .unmade => some ({ c with wrapper := .userPointer }, none)
  | .userPointer =>
      -- a missed open is replayed here, and finds `openCb` NULL
      some ({ c with wrapper := .openCallback, openCallback := c.openCallback.set.1 },
        c.openCallback.set.2.bind fun _ => HxDatachannel.openCallback d c.installed c.label buffer)
  | .openCallback =>
      some ({ c with wrapper := .closedCallback, closedCallback := c.closedCallback.set.1 },
        c.closedCallback.set.2.map fun _ => HxDatachannel.closedCallback d)
  | .closedCallback =>
      some ({ c with wrapper := .errorCallback, errorCallback := c.errorCallback.set.1 },
        c.errorCallback.set.2.map fun e => HxDatachannel.errorCallback d e)
  | .errorCallback =>
      some ({ c with wrapper := .messageCallback, messageCallback := true,
                     loop := Function.update c.loop 0 .due }, none)
  | .messageCallback =>
      -- the Haxe thread flushes in `rtcSetMessageCallback` before it goes on
      if c.loop 0 ≠ .idle then none
      else
        some ({ c with wrapper := .bufferedAmountLowCallback,
                       bufferedAmountLowCallback := c.bufferedAmountLowCallback.set.1 },
          c.bufferedAmountLowCallback.set.2.map fun _ => HxDatachannel.bufferedAmountLowCallback d)
  | .bufferedAmountLowCallback =>
      some ({ c with wrapper := .installed, state := .Closed }, none)
  | .installed =>
      if c.incoming then some ({ c with wrapper := .announced, state := .Open }, none) else none
  | .announced => none

/-- One step of channel `d`, with the event it queues. A channel opens at most once and not after it was
    closed; a message that arrives after the close is ignored. -/
def Chan.act (d : Nat) (c : Chan) : ChanAct → Option (Chan × Option CallbackResult)
  | .triggerOpen i buffer =>
      if c.opened ∨ c.mIsClosed ∨ c.loop i ≠ .idle ∨ i = 0 then none
      else
        some ({ c with mIsOpen := true, mOpenTriggered := true, opened := true,
                       openCallback := (c.openCallback.call ()).1,
                       loop := Function.update c.loop i .due },
          (c.openCallback.call ()).2.bind fun _ =>
            HxDatachannel.openCallback d c.installed c.label buffer)
  | .close =>
      if c.mIsClosed then none
      else
        some ({ c with mIsClosed := true, closedCallback := (c.closedCallback.call ()).1 },
          (c.closedCallback.call ()).2.map fun _ => HxDatachannel.closedCallback d)
  | .resetCallbacks =>
      if c.mIsClosed ∧ !c.callbacksReset then
        some ({ c with mOpenTriggered := false, openCallback := c.openCallback.unset,
                       closedCallback := c.closedCallback.unset,
                       errorCallback := c.errorCallback.unset,
                       bufferedAmountLowCallback := c.bufferedAmountLowCallback.unset,
                       messageCallback := false, callbacksReset := true }, none)
      else none
  | .triggerError e =>
      some ({ c with errorCallback := (c.errorCallback.call e).1 },
        (c.errorCallback.call e).2.map fun e => HxDatachannel.errorCallback d e)
  | .triggerBufferedAmountLow =>
      some ({ c with bufferedAmountLowCallback := (c.bufferedAmountLowCallback.call ()).1 },
        (c.bufferedAmountLowCallback.call ()).2.map fun _ =>
          HxDatachannel.bufferedAmountLowCallback d)
  | .incoming i m =>
      if c.loop i ≠ .idle ∨ i = 0 then none
      -- a closed channel drops what arrives
      else if c.mIsClosed then some (c, none)
      else
        some ({ c with mRecvQueue := c.mRecvQueue ++ [m], arrived := c.arrived ++ [m],
                       loop := Function.update c.loop i .due }, none)
  | .flushPendingMessages i => c.flush d i
  | .make buffer => c.make d buffer

/-- The field `state` when the closure in `cell` is entered. -/
def Chan.enter (c : Chan) (cell : Cell) : Chan :=
  match cell with
  | .openCb _   => { c with state := .Open }
  | .closedCb _ => { c with state := .Closed }
  | .errCb _    => { c with state := .Error }
  | _           => c

/-! ## A channel and its events -/

/-- A channel with its own part of the event queue. -/
structure Lane where
  chan   : Chan
  events : Fifo CallbackResult

/-- A step of a lane: a step of the channel, or the Haxe thread takes the channel's next event and enters
    its closure. -/
inductive LaneAct where
  | chan (a : ChanAct)
  | enter
deriving DecidableEq, Repr

/-- Queue an event if there is one. -/
def pushAll (q : Fifo CallbackResult) : Option CallbackResult → Fifo CallbackResult
  | some r => q.push r
  | none   => q

@[simp] theorem pushAll_pushed (q : Fifo CallbackResult) (post : Option CallbackResult) :
    (pushAll q post).pushed = q.pushed ++ post.toList := by
  cases post with
  | none => exact (List.append_nil _).symm
  | some r => rfl

def Lane.step (d : Nat) (l : Lane) : LaneAct → Option Lane
  | .chan a => (l.chan.act d a).map fun out => ⟨out.1, pushAll l.events out.2⟩
  | .enter  => l.events.pop.map fun out => ⟨l.chan.enter out.1.closure, out.2⟩

end HxDatachannel
