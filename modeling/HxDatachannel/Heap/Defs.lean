import HxDatachannel.Base.Lts
import HxDatachannel.Base.Reach
import HxDatachannel.Binding.Text
import HxDatachannel.Native.Tables

/-!
# `Heap.Defs` — wrappers, closures and the collector

The program as its memory: the blocks on the collected heap (the wrappers that C allocates, the closures in
their fields, the Haxe objects that the closures capture), what refers to what, the tables of the native
library with the wrappers as user pointers, the two queues, and the stack of the one Haxe thread. A wrapper is
made in many small steps, and between any two of them native threads may enter a callback and the collector
may finalize whatever nothing refers to.

The fields of a wrapper are not followed by the collector; they are roots of their own from `hl_add_root` until
the finalizer. Here the events and announcements name a wrapper by its address, as the callbacks do with the
user pointer they are handed. What the handlers do with channels is `World.Defs`.
-/

namespace HxDatachannel

open Native

/-! ## Fields, callbacks and arguments -/

/-- The callback that queues events for a field. -/
def Cell.event : Cell → Event
  | .descCb _           => .description
  | .candidateCb _      => .candidate
  | .stateCb _          => .stateChange
  | .gatheringStateCb _ => .gatheringState
  | .datachannelCb _    => .dataChannel
  | .openCb _           => .opened
  | .closedCb _         => .closed
  | .errCb _            => .error
  | .msgCb _            => .message
  | .bufferLowCb _      => .bufferedAmountLow

/-- The wrapper that the field is part of. -/
def Cell.owner : Cell → Nat
  | .descCb a | .candidateCb a | .stateCb a | .gatheringStateCb a | .datachannelCb a
  | .openCb a | .closedCb a | .errCb a | .msgCb a | .bufferLowCb a => a

def NativeCallback.event : NativeCallback → Event
  | .description ..       => .description
  | .candidate ..         => .candidate
  | .stateChange ..       => .stateChange
  | .gatheringState ..    => .gatheringState
  | .opened ..            => .opened
  | .closed ..            => .closed
  | .error ..             => .error
  | .message ..           => .message
  | .bufferedAmountLow .. => .bufferedAmountLow
  | .dataChannel ..       => .dataChannel

/-- The callback as it is entered: with the user pointer `ptr`, in whose field `openCb` it finds a closure or
    not. -/
def NativeCallback.withPointer (ptr : Nat) (openCb : Bool) : NativeCallback → NativeCallback
  | .description _ sdp type     => .description ptr sdp type
  | .candidate _ cand mid       => .candidate ptr cand mid
  | .stateChange _ state        => .stateChange ptr state
  | .gatheringState _ state     => .gatheringState ptr state
  | .opened _ _ label buffer    => .opened ptr openCb label buffer
  | .closed _                   => .closed ptr
  | .error _ msg                => .error ptr msg
  | .message _ data size        => .message ptr data size
  | .bufferedAmountLow _        => .bufferedAmountLow ptr
  | .dataChannel _ dc           => .dataChannel ptr dc

/-- The kinds of arguments. -/
inductive ArgKind where
  | bytes
  | i32
  | dataChannelData
deriving DecidableEq, Repr

/-- The parameters of the closure that is declared for an event. -/
def ArgKind.params : Event → List ArgKind
  | .description       => [.bytes, .bytes]
  | .candidate         => [.bytes]
  | .stateChange       => [.i32]
  | .gatheringState    => [.i32]
  | .dataChannel       => [.dataChannelData, .bytes]
  | .opened            => [.bytes]
  | .closed            => []
  | .error             => [.bytes]
  | .message           => [.bytes, .i32]
  | .bufferedAmountLow => []

def Vdynamic.kind : Vdynamic → ArgKind
  | .bytes _ => .bytes
  | .i32 _   => .i32

namespace Heap

/-- An argument of `hl_dyn_call`. -/
inductive Arg where
  | wrapper (a : Nat)
  | value (v : Vdynamic)
deriving DecidableEq, Repr

def Arg.kind : Arg → ArgKind
  | .wrapper _ => .dataChannelData
  | .value v   => v.kind

/-! ## Blocks -/

abbrev Addr := Nat

/-- `hl_rtc_peerconnection` or `hl_rtc_datachannel`: the native id and the closure fields, one for each
    callback. `rooted`: the fields are registered with `hl_add_root`. -/
structure Wrapper where
  ofConnection : Bool
  id           : Int
  cells        : Event → Option Addr
  rooted       : Bool
  finalized    : Bool

/-- An `RTCPeerConnection`, an `RTCDataChannel`, or any other object of the application. `links` is what the
    application stored in it: handlers with what they capture, and so on. -/
structure Object where
  inner          : Option Addr
  peerConnection : Option Addr
  dataChannels   : List Addr
  links          : List Addr
deriving DecidableEq, Repr

def Object.plain : Object := ⟨none, none, [], []⟩

/-- A closure is the code for an event with the object it captured as `this`. -/
inductive Block where
  | wrapper (w : Wrapper)
  | closure (e : Event) (owner : Addr)
  | object (o : Object)

/-- `hl_gc_alloc_finalizer`, with all fields NULL and registered as roots. -/
def Wrapper.alloc (ofConnection : Bool) (id : Int) : Wrapper :=
  { ofConnection, id, cells := fun _ => none, rooted := true, finalized := false }

def Wrapper.setCell (w : Wrapper) (e : Event) (c : Addr) : Wrapper :=
  { w with cells := Function.update w.cells e (some c) }

/-- The callbacks that are set when a wrapper is made, which is also the order in which its fields are
    assigned. -/
def registrations : Bool → List Event
  | true  => [.description, .candidate, .stateChange, .gatheringState]
  | false => [.opened, .closed, .error, .message, .bufferedAmountLow]

/-! ## Queues and stack -/

/-- A node of `datachannel_callbacks`. `raisedBy` is bookkeeping: the native id whose callback queued it. -/
structure Announcement where
  node     : DatachannelCallback
  raisedBy : Int
deriving DecidableEq, Repr

/-- A node of `callback_results`, with the callback and the native id that queued it. -/
structure Node where
  result   : CallbackResult
  event    : Event
  raisedBy : Int
deriving DecidableEq, Repr

/-- Who makes a wrapper: the constructor of the object `o`, a call of `createDatachannel` or its sibling on the
    object `pc`, or `process_events` for an announcement. -/
inductive Caller where
  | newPeerConnection (o : Addr)
  | createDatachannel (pc : Addr)
  | announced (x : Announcement)
deriving DecidableEq, Repr

def Caller.ofConnection : Caller → Bool
  | .newPeerConnection _ => true
  | .createDatachannel _ => false
  | .announced _         => false

/-- `process_events` has the node of an announcement in its hand, which is plain memory. -/
def Caller.refs : Caller → List Addr
  | .newPeerConnection o  => [o]
  | .createDatachannel pc => [pc]
  | .announced _          => []

/-- Which closures are being stored: those of `set_peer_connection_callbacks`, the one of
    `set_peerconnection_datachannel_cb`, or those of `set_datachannel_callbacks` for a channel of the object
    `pc`. -/
inductive Site where
  | connection
  | datachannelCb
  | channel (pc : Addr) (incoming : Bool)
deriving DecidableEq, Repr

def Site.ofConnection : Site → Bool
  | .connection    => true
  | .datachannelCb => true
  | .channel ..    => false

def Site.refs : Site → List Addr
  | .connection    => []
  | .datachannelCb => []
  | .channel pc _  => [pc]

/-- What the Haxe thread is inside of. -/
inductive Frame where
  /-- The library has returned `id`; the wrapper is allocated next. -/
  | creating (caller : Caller) (id : Int)
  /-- `rtcSetUserPointer` is next. -/
  | allocated (caller : Caller) (a : Addr)
  /-- The callbacks in `todo` are left to be set. -/
  | registering (caller : Caller) (a : Addr) (todo : List Event)
  /-- `new RTCDataChannel` is next. -/
  | constructing (a pc : Addr) (incoming : Bool)
  /-- The fields of wrapper `a` that are in `todo` are left to be assigned, for object `o`. -/
  | installing (o a : Addr) (todo : List Event) (site : Site)
  /-- `rtcSetDataChannelCallback` is next. -/
  | registeringDatachannel (o a : Addr)
  /-- `this.dataChannels.push(dc)` is next. -/
  | pushing (pc o : Addr) (incoming : Bool)
  /-- `process_events`, first loop. -/
  | announcing
  /-- The application's `onDataChannel` runs. -/
  | onDataChannel (pc o : Addr)
  /-- `process_events`, second loop. -/
  | draining
  /-- The closure at `c` runs, and in it the application's handler. -/
  | handling (c : Addr)
deriving DecidableEq, Repr

/-- The references that a call in progress holds. -/
def Frame.refs : Frame → List Addr
  | .creating caller _        => caller.refs
  | .allocated caller a       => a :: caller.refs
  | .registering caller a _   => a :: caller.refs
  | .constructing a pc _      => [a, pc]
  | .installing o a _ site    => o :: a :: site.refs
  | .registeringDatachannel o a => [o, a]
  | .pushing pc o _           => [pc, o]
  | .announcing               => []
  | .onDataChannel pc o       => [pc, o]
  | .draining                 => []
  | .handling c               => [c]

/-- A wrapper is being made. -/
def Frame.builds : Frame → Bool
  | .announcing | .onDataChannel .. | .draining | .handling _ => false
  | _                                                         => true

/-- The application's code runs: nothing of the binding is on top. -/
def applicationRuns : List Frame → Bool
  | []                       => true
  | .onDataChannel .. :: _   => true
  | .handling _ :: _         => true
  | _                        => false

/-! ## The program -/

/-- `next`: the address of the next block. `closed`: the native objects that are closed. `held`: the references
    that the application has, in static fields and local variables. `nullCall` marks the end of a run that called
    a closure that is NULL. -/
structure State where
  native        : Tables Addr
  closed        : Int → Bool
  next          : Addr
  block         : Addr → Option Block
  held          : List Addr
  stack         : List Frame
  announcements : List Announcement
  results       : List Node
  nullCall      : Bool

def State.init : State :=
  { native := .empty, closed := fun _ => false, next := 0, block := fun _ => none, held := [], stack := [],
    announcements := [], results := [], nullCall := false }

/-- What happens next. `raise`, `incoming` and `close` are steps of native threads, `collect` is one of the
    collector, the others are steps of the Haxe thread. -/
inductive Act where
  /-- The application keeps these references from now on, and no others. -/
  | hold (bs : List Addr)
  /-- The application stores the references `bs` in an object, and leaves `dcs` in its list of channels. -/
  | link (o : Addr) (dcs bs : List Addr)
  | allocate
  | newPeerConnection (failure : Option Nat)
  | createDatachannel (o : Addr) (failure : Option Nat)
  | processEvents
  /-- The next step of the binding's code on top of the stack. -/
  | advance (label buffer : Bytes)
  | exhausted
  | ret
  | throw
  /-- A callback of the native object `i` is entered. -/
  | raise (i : Int) (cb : NativeCallback)
  /-- The peer created a channel on connection `pc`. -/
  | incoming (pc : Int)
  | close (i : Int)
  /-- The finalizer of the wrapper at `a` runs. -/
  | collect (a : Addr)
deriving DecidableEq, Repr

namespace State

/-! ## Reading and writing memory -/

def wrapper (s : State) (a : Addr) : Option Wrapper :=
  match s.block a with
  | some (.wrapper w) => some w
  | _                 => none

def object (s : State) (a : Addr) : Option Object :=
  match s.block a with
  | some (.object o) => some o
  | _                => none

/-- What a closure field holds. -/
def cell (s : State) (a : Addr) (e : Event) : Option Addr := (s.wrapper a).bind fun w => w.cells e

def set (s : State) (a : Addr) (b : Block) : State := { s with block := Function.update s.block a (some b) }

/-- A new block, at `s.next`. -/
def alloc (s : State) (b : Block) : State :=
  { s with block := Function.update s.block s.next (some b), next := s.next + 1 }

/-! ## API calls -/

/-- `new RTCPeerConnection`, up to the return of `rtcCreatePeerConnection`. -/
def newPeerConnection (s : State) (failure : Option Nat) : State :=
  let created := s.native.rtcCreatePeerConnection failure
  { s.alloc (.object .plain) with
    native := created.2
    stack := .creating (.newPeerConnection s.next) created.1 :: s.stack }

/-- `createDatachannel` or `createDatachannelWithOptions`, up to the return of the native function. -/
def createDatachannel (s : State) (o : Addr) (failure : Option Nat) : Option State :=
  (s.object o).bind fun ob => ob.inner.bind fun a => (s.wrapper a).bind fun w =>
    if w.ofConnection then
      let created := s.native.rtcCreateDataChannelEx w.id failure
      some { s with
        native := created.2
        stack := .creating (.createDatachannel o) created.1 :: s.stack }
    else none

/-! ## `hl_dyn_call` -/

end State

/-- A call of `hl_dyn_call` in `process_events`: the closure that is read and the arguments (`none` where one
    was not initialised), with the event that is behind it. -/
structure DynCall where
  closure  : Option Addr
  args     : Option (List Arg)
  event    : Event
  raisedBy : Int

namespace State

/-- The call that comes next, if one does: with the wrapper of an announced channel and its label, or with what
    the node of an event holds. -/
def dynCall (s : State) (label buffer : Bytes) : Option DynCall :=
  match s.stack with
  | .registering (.announced x) a [] :: _ =>
      some { closure := s.cell x.node.pc .dataChannel
             args := some [.wrapper a, .value (.bytes (announcedName label buffer))]
             event := .dataChannel, raisedBy := x.raisedBy }
  | .draining :: _ =>
      s.results.head?.map fun n =>
        { closure := s.cell n.result.closure.owner n.result.closure.event
          args := n.result.callArgs.map fun vs => vs.map .value
          event := n.event, raisedBy := n.raisedBy }
  | _ => none

/-- The closure at `c` is entered. The one for announced channels goes on to construct the channel on the object
    it captured. -/
def enter (s : State) (c : Addr) (made : Option Addr) (rest : List Frame) : State :=
  match made, s.block c with
  | some a, some (.closure _ owner) => { s with stack := .constructing a owner true :: rest }
  | _, _                            => { s with stack := .handling c :: rest }

/-! ## Steps of the binding's code -/

/-- The next step of the binding's code. -/
def advance (s : State) (label buffer : Bytes) : Option State :=
  match s.stack with
  | .creating caller id :: rest =>
      some { s.alloc (.wrapper (.alloc caller.ofConnection id)) with stack := .allocated caller s.next :: rest }
  | .allocated caller a :: rest =>
      (s.wrapper a).map fun w =>
        { s with native := s.native.rtcSetUserPointer w.id (some a)
                 stack := .registering caller a (registrations caller.ofConnection) :: rest }
  | .registering caller a (e :: todo) :: rest =>
      (s.wrapper a).map fun w =>
        { s with native := s.native.rtcSetCallback w.id e, stack := .registering caller a todo :: rest }
  | .registering (.newPeerConnection o) a [] :: rest =>
      -- `this.inner = create_peer_connection(...)`
      (s.object o).map fun ob =>
        { s.set o (.object { ob with inner := some a }) with
          stack := .installing o a (registrations true) .connection :: rest }
  | .registering (.createDatachannel pc) a [] :: rest => some { s with stack := .constructing a pc false :: rest }
  | .registering (.announced _) a [] :: rest =>
      (s.dynCall label buffer).map fun call =>
        match call.closure with
        | some c => s.enter c (some a) rest
        | none   => { s with nullCall := true }
  | .constructing a pc incoming :: rest =>
      some { s.alloc (.object ⟨some a, some pc, [], []⟩) with
        stack := .installing s.next a (registrations false) (.channel pc incoming) :: rest }
  | .installing o a (e :: todo) site :: rest =>
      (s.wrapper a).map fun w =>
        { (s.alloc (.closure e o)).set a (.wrapper (w.setCell e s.next)) with
          stack := .installing o a todo site :: rest }
  | .installing o a [] .connection :: rest => some { s with stack := .registeringDatachannel o a :: rest }
  | .installing _ _ [] .datachannelCb :: rest => some { s with stack := rest }
  | .installing o _ [] (.channel pc incoming) :: rest => some { s with stack := .pushing pc o incoming :: rest }
  | .registeringDatachannel o a :: rest =>
      (s.wrapper a).map fun w =>
        { s with native := s.native.rtcSetCallback w.id .dataChannel
                 stack := .installing o a [.dataChannel] .datachannelCb :: rest }
  | .pushing pc o incoming :: rest =>
      (s.object pc).map fun ob =>
        { s.set pc (.object { ob with dataChannels := ob.dataChannels ++ [o] }) with
          stack := if incoming then .onDataChannel pc o :: rest else rest }
  | .announcing :: rest =>
      match s.announcements with
      | x :: xs => some { s with announcements := xs, stack := .creating (.announced x) x.node.dc :: rest }
      | []      => some { s with stack := .draining :: rest }
  | .draining :: rest =>
      match s.results with
      | _ :: ns =>
          (s.dynCall label buffer).map fun call =>
            match call.closure with
            | some c => { s with results := ns }.enter c none rest
            | none   => { s with nullCall := true }
      | []      => some { s with stack := rest }
  | _ => none

/-! ## Native threads -/

/-- A callback of `i` other than `dataChannelCallback` is entered, if it is set and `i` has a user pointer. -/
def raise (s : State) (i : Int) (cb : NativeCallback) : Option State :=
  match s.native.entered i cb.event with
  | some (some ptr) =>
      match (cb.withPointer ptr (s.cell ptr .opened).isSome).post with
      | some (.result r)       => some { s with results := s.results ++ [⟨r, cb.event, i⟩] }
      | some (.announcement _) => none
      | none                   => some s
  | _ => none

/-- The peer's channel gets an id, and `dataChannelCallback` is entered. -/
def incoming (s : State) (pc : Int) : Option State :=
  match s.native.entered pc .dataChannel with
  | some (some ptr) =>
      let created := s.native.incomingDataChannel pc
      some { s with
        native := created.2
        announcements := s.announcements ++ [⟨dataChannelCallback ptr created.1.toNat, pc⟩] }
  | _ => none

/-! ## The collector -/

/-- What both finalizers do: `events` are unset in this order, then the native object is deleted. -/
def unregister (s : State) (id : Int) (events : List Event) : Tables Addr :=
  events.foldl (fun t e => t.rtcUnsetCallback id e) s.native

def hl_rtc_peerconnection_finalize (s : State) (w : Wrapper) : Tables Addr :=
  (s.unregister w.id [.candidate, .description, .stateChange, .gatheringState, .dataChannel]).rtcDeletePeerConnection
    w.id

def hl_rtc_datachannel_finalize (s : State) (w : Wrapper) : Tables Addr :=
  (s.unregister w.id [.opened, .closed, .error, .message, .bufferedAmountLow]).rtcDeleteDataChannel w.id

/-- The finalizer runs, and the roots are removed. -/
def finalize (s : State) (a : Addr) (w : Wrapper) : State :=
  { s.set a (.wrapper { w with rooted := false, finalized := true }) with
    native :=
      if w.ofConnection then s.hl_rtc_peerconnection_finalize w else s.hl_rtc_datachannel_finalize w }

/-! ## All steps -/

def step (s : State) (act : Act) : Option State :=
  if s.nullCall then none
  else match act with
    | .hold bs => if applicationRuns s.stack then some { s with held := bs } else none
    | .link o dcs bs =>
        if applicationRuns s.stack then
          (s.object o).map fun ob => s.set o (.object { ob with dataChannels := dcs, links := bs })
        else none
    | .allocate =>
        if applicationRuns s.stack then some { s.alloc (.object .plain) with held := s.next :: s.held }
        else none
    | .newPeerConnection failure =>
        if applicationRuns s.stack then some (s.newPeerConnection failure) else none
    | .createDatachannel o failure =>
        if applicationRuns s.stack then s.createDatachannel o failure else none
    | .processEvents =>
        if applicationRuns s.stack then some { s with stack := .announcing :: s.stack } else none
    | .advance label buffer => s.advance label buffer
    | .exhausted =>
        match s.stack with
        | .draining :: rest => some { s with stack := rest }
        | _                 => none
    | .ret =>
        match s.stack with
        | .onDataChannel .. :: rest => some { s with stack := .announcing :: rest }
        | .handling _ :: rest       => some { s with stack := .draining :: rest }
        | _                         => none
    | .throw =>
        match s.stack with
        | .onDataChannel .. :: rest => some { s with stack := rest }
        | .handling _ :: rest       => some { s with stack := rest }
        | _                         => none
    | .raise i cb => s.raise i cb
    | .incoming pc => s.incoming pc
    | .close i => some { s with closed := Function.update s.closed i true }
    | .collect a => (s.wrapper a).bind fun w => if w.finalized then none else some (s.finalize a w)

/-! ## What the collector sees -/

/-- One block refers to another. -/
inductive Edge (s : State) : Addr → Addr → Prop where
  | inner {o a ob} (ho : s.object o = some ob) (h : ob.inner = some a) : Edge s o a
  | peerConnection {o a ob} (ho : s.object o = some ob) (h : ob.peerConnection = some a) : Edge s o a
  | dataChannels {o a ob} (ho : s.object o = some ob) (h : a ∈ ob.dataChannels) : Edge s o a
  | links {o a ob} (ho : s.object o = some ob) (h : a ∈ ob.links) : Edge s o a
  | captured {c o e} (hc : s.block c = some (.closure e o)) : Edge s c o

/-- What the application holds, what a call in progress holds, and what the registered fields of the wrappers
    that meet `P` hold. -/
inductive Root (s : State) (P : Addr → Prop) : Addr → Prop where
  | held {a} (h : a ∈ s.held) : Root s P a
  | stack {f a} (hf : f ∈ s.stack) (h : a ∈ f.refs) : Root s P a
  | cell {a w e c} (hP : P a) (hw : s.wrapper a = some w) (hrooted : w.rooted = true)
      (h : w.cells e = some c) : Root s P c

def Reachable (s : State) (a : Addr) : Prop := Reach.Reachable s.Edge (s.Root fun _ => True) a

/-- Reachable by a path that does not start in one of its own fields. -/
def ReachableOtherwise (s : State) (a : Addr) : Prop := Reach.Reachable s.Edge (s.Root (· ≠ a)) a

/-- The collector takes only what is not reachable, and the application uses only what is. -/
def Admitted (s : State) : Act → Prop
  | .hold bs               => ∀ b ∈ bs, s.Reachable b
  | .link o dcs bs         => s.Reachable o ∧ (∀ d ∈ dcs, s.Reachable d) ∧ ∀ b ∈ bs, s.Reachable b
  | .createDatachannel o _ => s.Reachable o
  | .collect a             => ¬s.Reachable a
  | _                      => True

end State
end Heap
end HxDatachannel
