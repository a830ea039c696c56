import Mathlib.Data.List.Basic

/-!
# `Binding.CallbackResult` — the queued events and the ten native callbacks

The C glue (`datachannel.c`) turns each native callback into a heap node and leaves it in one of two
linked lists; `process_events` later unpacks the node and calls a Haxe closure. This file models the two
node types, what each of the ten callbacks writes into them, and how `process_events` rebuilds the
arguments of the call. How nodes are queued and popped is `EventLoop.Defs`, and `Lists.Defs` pointer by
pointer.

Memory is modelled by the bytes a pointer can read: a `const char *` argument is the list of bytes from
the pointer on, so a C string of `n` bytes is a list with its first NUL at index `n`. A field that `malloc`
leaves uninitialised is `none`.
-/

namespace HxDatachannel

/-- The bytes a pointer can read. -/
abbrev Bytes := List UInt8

/-- `strlen`: the number of bytes before the first NUL. -/
def strlen (s : Bytes) : Nat := (s.takeWhile (· ≠ 0)).length

/-- A `vdynamic` as the callbacks fill it: the type tag (`hlt_bytes` or `hlt_i32`) with its value. -/
inductive Vdynamic where
  | bytes (b : Bytes)
  | i32 (i : Int)
deriving DecidableEq, Repr

/-- A `vclosure*` field of a wrapper, named by the native id the wrapper holds. The first five belong to
    `hl_rtc_peerconnection`, the others to `hl_rtc_datachannel`. -/
inductive Cell where
  | descCb (pc : Nat)
  | candidateCb (pc : Nat)
  | stateCb (pc : Nat)
  | gatheringStateCb (pc : Nat)
  | datachannelCb (pc : Nat)
  | openCb (dc : Nat)
  | closedCb (dc : Nat)
  | errCb (dc : Nat)
  | msgCb (dc : Nat)
  | bufferLowCb (dc : Nat)
deriving DecidableEq, Repr

/-- A node of `callback_results`. -/
structure CallbackResult where
  closure       : Cell
  arg1          : Option Vdynamic
  arg2          : Option Vdynamic
  args          : Nat
  arg1Size      : Option Nat
  arg2Size      : Option Nat
  callback_name : String
deriving DecidableEq, Repr

/-- A node of `datachannel_callbacks`: the native id of an incoming channel and its connection. -/
structure DatachannelCallback where
  dc : Nat
  pc : Nat
deriving DecidableEq, Repr

/-! ## The callbacks -/

/-- `malloc(n + 1)`, `memcpy` of `n` bytes, and the terminator. -/
def copyString (s : Bytes) : Bytes := s.take (strlen s) ++ [0]

def descriptionCallback (pc : Nat) (sdp type : Bytes) : CallbackResult :=
  { closure := .descCb pc, arg1 := some (.bytes (copyString sdp)),
    arg2 := some (.bytes (copyString type)), args := 2, arg1Size := some (strlen sdp + 1),
    arg2Size := some (strlen type + 1), callback_name := "onDescription" }

def candidateCallback (pc : Nat) (cand _mid : Bytes) : CallbackResult :=
  { closure := .candidateCb pc, arg1 := some (.bytes (copyString cand)), arg2 := none, args := 1,
    arg1Size := some (strlen cand + 1), arg2Size := none, callback_name := "onCandidate" }

def stateChangeCallback (pc : Nat) (state : Int) : CallbackResult :=
  { closure := .stateCb pc, arg1 := some (.i32 state), arg2 := none, args := 1, arg1Size := none,
    arg2Size := none, callback_name := "onStateChange" }

def gatheringStateCallback (pc : Nat) (state : Int) : CallbackResult :=
  { closure := .gatheringStateCb pc, arg1 := some (.i32 state), arg2 := none, args := 1,
    arg1Size := none, arg2Size := none, callback_name := "onGatheringStateChange" }

/-- `rtcGetDataChannelLabel(dc, buffer, 256)`: the label and its terminator in front of what the buffer
    held before, or `none` (a negative code) when they do not fit. -/
def rtcGetDataChannelLabel (label buffer : Bytes) : Option Bytes :=
  if 256 < label.length + 1 then none else some (label ++ [0] ++ buffer.drop (label.length + 1))

/-- The literal `"unnamed"` with its terminator. -/
def unnamed : Bytes := [117, 110, 110, 97, 109, 101, 100, 0]

/-- `openCb` is the wrapper's `openCb` field at the time of the call, `buffer` the stack buffer that
    receives the label. While the field is NULL the callback returns without queueing anything. -/
def openCallback (dc : Nat) (openCb : Bool) (label buffer : Bytes) : Option CallbackResult :=
  if !openCb then none
  else match rtcGetDataChannelLabel label buffer with
    | some b =>
        some { closure := .openCb dc, arg1 := some (.bytes b), arg2 := none, args := 1,
               arg1Size := some 256, arg2Size := none, callback_name := "onOpen" }
    | none =>
        some { closure := .openCb dc, arg1 := some (.bytes unnamed), arg2 := none, args := 1,
               arg1Size := some 8, arg2Size := none, callback_name := "onOpen" }

def closedCallback (dc : Nat) : CallbackResult :=
  { closure := .closedCb dc, arg1 := none, arg2 := none, args := 0, arg1Size := none,
    arg2Size := none, callback_name := "onClose" }

def errorCallback (dc : Nat) (error : Bytes) : CallbackResult :=
  { closure := .errCb dc, arg1 := some (.bytes (copyString error)), arg2 := none, args := 1,
    arg1Size := some (strlen error + 1), arg2Size := none, callback_name := "onError" }

/-- A negative `size` marks a NUL-terminated string; its length is then taken with `strlen`. -/
def messageCallback (dc : Nat) (message : Bytes) (size : Int) : CallbackResult :=
  if size < 0 then
    { closure := .msgCb dc, arg1 := some (.bytes (copyString message)),
      arg2 := some (.i32 (strlen message + 1)), args := 2, arg1Size := some (strlen message + 1),
      arg2Size := none, callback_name := "onMessage" }
  else
    { closure := .msgCb dc, arg1 := some (.bytes (message.take size.toNat)), arg2 := some (.i32 size),
      args := 2, arg1Size := some size.toNat, arg2Size := none, callback_name := "onMessage" }

def dataChannelCallback (pc dc : Nat) : DatachannelCallback := ⟨dc, pc⟩

def bufferedAmountLowCallback (dc : Nat) : CallbackResult :=
  { closure := .bufferLowCb dc, arg1 := none, arg2 := none, args := 0, arg1Size := none,
    arg2Size := none, callback_name := "onBufferLow" }

/-! ## Which callback is running, and what it queues -/

/-- A call of one of the ten callbacks, with everything it reads. -/
inductive NativeCallback where
  | description (pc : Nat) (sdp type : Bytes)
  | candidate (pc : Nat) (cand mid : Bytes)
  | stateChange (pc : Nat) (state : Int)
  | gatheringState (pc : Nat) (state : Int)
  | opened (dc : Nat) (openCb : Bool) (label buffer : Bytes)
  | closed (dc : Nat)
  | error (dc : Nat) (msg : Bytes)
  | message (dc : Nat) (data : Bytes) (size : Int)
  | bufferedAmountLow (dc : Nat)
  | dataChannel (pc dc : Nat)
deriving DecidableEq, Repr

/-- What a callback leaves behind: a node in one of the two lists. -/
inductive Post where
  | result (r : CallbackResult)
  | announcement (d : DatachannelCallback)
deriving DecidableEq, Repr

/-- The node a callback queues, if it queues one. -/
def NativeCallback.post : NativeCallback → Option Post
  | .description pc sdp type          => some (.result (descriptionCallback pc sdp type))
  | .candidate pc cand mid            => some (.result (candidateCallback pc cand mid))
  | .stateChange pc state             => some (.result (stateChangeCallback pc state))
  | .gatheringState pc state          => some (.result (gatheringStateCallback pc state))
  | .opened dc openCb label buffer    => (openCallback dc openCb label buffer).map .result
  | .closed dc                        => some (.result (closedCallback dc))
  | .error dc msg                     => some (.result (errorCallback dc msg))
  | .message dc data size             => some (.result (messageCallback dc data size))
  | .bufferedAmountLow dc             => some (.result (bufferedAmountLowCallback dc))
  | .dataChannel pc dc                => some (.announcement (dataChannelCallback pc dc))

/-! ## Unpacking in `process_events` -/

/-- One argument of the call: a byte argument is copied to the collected heap (`size` bytes of it), an
    integer is passed as it is. `none` when an uninitialised field would be read. -/
def copyArg (arg : Option Vdynamic) (size : Option Nat) : Option Vdynamic :=
  match arg, size with
  | some (.bytes b), some n => some (.bytes (b.take n))
  | some (.i32 i), _        => some (.i32 i)
  | _, _                    => none

/-- The arguments `process_events` passes to the closure of a node. -/
def CallbackResult.callArgs (res : CallbackResult) : Option (List Vdynamic) :=
  match res.args with
  | 0 => some []
  | 1 => (copyArg res.arg1 res.arg1Size).map fun a => [a]
  | 2 => (copyArg res.arg1 res.arg1Size).bind fun a =>
           (copyArg res.arg2 res.arg2Size).map fun b => [a, b]
  | _ => none

end HxDatachannel
