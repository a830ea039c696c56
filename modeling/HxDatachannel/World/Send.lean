import HxDatachannel.World.Lane
import HxDatachannel.Binding.Payload

/-!
# `World.Send` — what a call of `sendMessage` or `sendBytes` does

Both backends guard a send with the wrapper's field `state`, a mirror of the channel that is set when
events are entered. In HL the native result is not looked at; in JS the browser's own exception comes
through. So a send is all or an `RTCException` iff the guard already refuses it or the channel below
accepts it (`send_all_or_exception`), and the mirror may say `Open` when the channel does not
(`send_on_closed`).
-/

namespace HxDatachannel

open Lts

/-! ## A call and its contract -/

inductive Exception where
  | RTCException
  | InvalidStateError
deriving DecidableEq, Repr

/-- How a call ended, and the bytes that the channel below accepted. -/
structure Call where
  thrown   : Option Exception
  accepted : Option Bytes
deriving DecidableEq, Repr

/-- **All or an exception.** The call returns, the channel was open and accepted the whole payload; or it
    throws `RTCException` and nothing was handed over. -/
def AllOrException (isOpen : Bool) (payload : Bytes) (call : Call) : Prop :=
  match call.thrown with
  | none   => isOpen = true ∧ ∃ bytes, call.accepted = some bytes ∧ payload <+: bytes
  | some e => e = .RTCException ∧ call.accepted = none

/-! ## HL -/

/-- `DataChannel::isOpen`. -/
def Chan.isOpen (c : Chan) : Bool := !c.mIsClosed && c.mIsOpen

/-- `rtcSendMessage`: the bytes accepted, or `none` for a negative code. `maxMessageSize` is the peer's. -/
def rtcSendMessage (c : Chan) (maxMessageSize : Nat) (data : Bytes) : Option Bytes :=
  if c.isOpen && data.length ≤ maxMessageSize then some data else none

/-- The body of both HL methods, once the payload is bytes; the code of `rtcSendMessage` is ignored. -/
def Chan.send (c : Chan) (maxMessageSize : Nat) (data : Bytes) : Call :=
  if c.state ≠ .Open then ⟨some .RTCException, none⟩
  -- `datachannel_send_message` returns nothing
  else ⟨none, rtcSendMessage c maxMessageSize data⟩

def Chan.sendMessage (c : Chan) (maxMessageSize : Nat) (m : String) : Call :=
  c.send maxMessageSize (HaxeBytes.ofString m).content

def Chan.sendBytes (c : Chan) (maxMessageSize : Nat) (b : HaxeBytes) : Call :=
  c.send maxMessageSize b.content

/-- The guard refuses, or the channel is not closed and takes a payload of this size. -/
def Chan.Sendable (c : Chan) (maxMessageSize : Nat) (payload : Bytes) : Prop :=
  c.state ≠ .Open ∨ (c.mIsClosed = false ∧ payload.length ≤ maxMessageSize)

/-! ## JS -/

inductive ReadyState where
  | connecting
  | open
  | closing
  | closed
deriving DecidableEq, Repr

/-- An event of the browser's channel that waits for its handler. -/
inductive JsEvent where
  | open
  | close
  | error
deriving DecidableEq, Repr

/-- The browser's channel with the wrapper's field `state`. -/
structure JsChannel where
  readyState : ReadyState
  events     : List JsEvent
  state      : RTCDataChannelState
deriving DecidableEq, Repr

/-- A channel when its wrapper is constructed. One that the peer created is already open. -/
def JsChannel.fresh (incoming : Bool) : JsChannel :=
  { readyState := if incoming then .open else .connecting, events := [], state := .Open }

inductive JsAct where
  | opens
  | closing
  | closes
  | fails
  /-- The handler of the oldest waiting event runs. -/
  | dispatch
deriving DecidableEq, Repr

/-- What the handler of an event makes of the wrapper's `state`. -/
def JsEvent.state : JsEvent → RTCDataChannelState
  | .open  => .Open
  | .close => .Closed
  | .error => .Error

def JsChannel.step (s : JsChannel) : JsAct → Option JsChannel
  | .opens =>
      if s.readyState = .connecting then
        some { s with readyState := .open, events := s.events ++ [.open] }
      else none
  | .closing =>
      if s.readyState = .connecting ∨ s.readyState = .open then
        some { s with readyState := .closing }
      else none
  | .closes =>
      if s.readyState = .closed then none
      else some { s with readyState := .closed, events := s.events ++ [.close] }
  | .fails => some { s with events := s.events ++ [.error] }
  | .dispatch =>
      match s.events with
      | e :: rest => some { s with events := rest, state := e.state }
      | []        => none

/-- The browser's `send` throws unless `readyState` is open. -/
def JsChannel.innerSend (s : JsChannel) (data : Bytes) : Call :=
  if s.readyState = .open then ⟨none, some data⟩ else ⟨some .InvalidStateError, none⟩

def JsChannel.sendMessage (s : JsChannel) (m : String) : Call :=
  if s.state ≠ .Open then ⟨some .RTCException, none⟩ else s.innerSend (utf8 m)

def JsChannel.sendBytes (s : JsChannel) (b : HaxeBytes) : Call :=
  if s.state ≠ .Open then ⟨some .RTCException, none⟩ else s.innerSend b.buffer

/-- The guard refuses, or the channel is open. -/
def JsChannel.Sendable (s : JsChannel) : Prop := s.state ≠ .Open ∨ s.readyState = .open

/-! ## The mirror in JS -/

/-- The wrapper's `state` when all waiting events have been handled. -/
def JsChannel.settledState (s : JsChannel) : RTCDataChannelState :=
  (s.events.getLast?.map JsEvent.state).getD s.state

theorem JsChannel.settledState_append (s : JsChannel) (ready : ReadyState) (e : JsEvent) :
    { s with readyState := ready, events := s.events ++ [e] }.settledState = e.state := by
  simp [settledState]

/-- The mirror of a closed channel has seen the closing, or an event that waits will tell it. -/
theorem JsChannel.settled_step {s t : JsChannel} {a : JsAct} (hstep : s.step a = some t)
    (hs : s.readyState = .closed → s.settledState ≠ .Open) :
    t.readyState = .closed → t.settledState ≠ .Open := by
  intro hclosed
  cases a with
  | opens =>
      simp only [JsChannel.step, Option.ite_none_right_eq_some, Option.some.injEq] at hstep
      obtain ⟨-, rfl⟩ := hstep
      exact absurd hclosed (by simp)
  | closing =>
      simp only [JsChannel.step, Option.ite_none_right_eq_some, Option.some.injEq] at hstep
      obtain ⟨-, rfl⟩ := hstep
      exact absurd hclosed (by simp)
  | closes =>
      simp only [JsChannel.step, Option.ite_none_left_eq_some, Option.some.injEq] at hstep
      obtain ⟨-, rfl⟩ := hstep
      rw [settledState_append]
      simp [JsEvent.state]
  | fails =>
      obtain rfl := Option.some.inj hstep
      rw [settledState_append]
      simp [JsEvent.state]
  | dispatch =>
      cases hevents : s.events with
      | nil => exact absurd hstep (by simp [JsChannel.step, hevents])
      | cons e rest =>
          simp only [JsChannel.step, hevents, Option.some.injEq] at hstep
          subst hstep
          have hsame : { s with events := rest, state := e.state }.settledState = s.settledState := by
            cases rest with
            | nil => simp [settledState, hevents]
            | cons x xs =>
                rw [settledState, settledState, hevents, List.getLast?_cons_cons,
                  List.getLast?_eq_getLast_of_ne_nil (List.cons_ne_nil x xs)]
                rfl
          rw [hsame]
          exact hs hclosed

/-- **With no event waiting, the mirror of a closed channel is not `Open`**, in every run of the browser. -/
theorem JsChannel.sendable_of_idle {D : JsChannel → JsAct → Prop} {incoming : Bool} {s : JsChannel}
    (h : Path JsChannel.step D (.fresh incoming) s) (hidle : s.events = [])
    (hclosed : s.readyState = .closed) : s.Sendable := by
  have hsettled := h.invariant (I := fun s => s.readyState = .closed → s.settledState ≠ .Open)
    (fun _ _ _ hs _ hstep => settled_step hstep hs)
    (fun hfresh => absurd hfresh (by cases incoming <;> simp [JsChannel.fresh]))
  refine .inl ?_
  have hne := hsettled hclosed
  rwa [settledState, hidle, List.getLast?_nil, Option.map_none, Option.getD_none] at hne

/-! ## The mirror in HL -/

/-- The mirror says `Open` only for a channel that was opened. -/
structure Mirrored (c : Chan) : Prop where
  opened : c.opened = true → c.mIsOpen = true
  incoming : c.incoming = true → c.mIsOpen = true
  state : c.state = .Open → c.mIsOpen = true

theorem mirrored_fresh (pc : Nat) (label : Bytes) (incoming : Bool) :
    Mirrored (.fresh pc label incoming) := by
  constructor <;> simp [Chan.fresh]

theorem ChanEffect.mirrored {d : Nat} {c c' : Chan} {a : ChanAct} {post : Option CallbackResult}
    (h : ChanEffect d c a c' post) (hc : Mirrored c) : Mirrored c' := by
  cases h with
  | triggerOpen => exact ⟨fun _ => rfl, fun _ => rfl, fun _ => rfl⟩
  | install => exact ⟨hc.opened, hc.incoming, fun h => absurd h (by simp)⟩
  | announce _ hin => exact ⟨hc.opened, hc.incoming, fun _ => hc.incoming hin⟩
  | _ => exact ⟨hc.opened, hc.incoming, hc.state⟩

/-- An opening that is queued has happened. -/
theorem Reported.opened {d lost : Nat} {l : Lane} (h : Reported d lost l) {r : CallbackResult}
    (hr : r ∈ l.events.pushed) {e : Nat} (hcell : r.closure = .openCb e) : l.chan.opened = true := by
  have hmem : Cell.openCb e ∈ lifecycle l.events.pushed := by
    refine List.mem_filter.mpr ⟨List.mem_map.mpr ⟨r, hr, hcell⟩, rfl⟩
  rw [h.queued] at hmem
  by_contra hopened
  have hfalse : l.chan.opened = false := by simpa using hopened
  rw [hfalse] at hmem
  cases hcl : l.chan.mIsClosed && l.chan.closedCallback.stored.isNone <;>
    simp [hcl] at hmem

theorem pushAll_conserved {q : Fifo CallbackResult} (h : q.Conserved) (post : Option CallbackResult) :
    (pushAll q post).Conserved := by
  cases post with
  | none => exact h
  | some r => exact h.push r

/-- The lane invariant behind the mirror. -/
def MirroredLane (d : Nat) (l : Lane) : Prop :=
  (∃ lost, Reported d lost l) ∧ l.events.Conserved ∧ Mirrored l.chan

theorem mirroredLane_step {d : Nat} {l l' : Lane} {b : LaneAct} (h : MirroredLane d l)
    (hstep : l.step d b = some l') : MirroredLane d l' := by
  obtain ⟨⟨lost, hrep⟩, hcons, hm⟩ := h
  refine ⟨⟨_, reported_step hrep hstep⟩, ?_⟩
  rcases lane_cases hstep with ⟨a, c', post, rfl, heff, rfl⟩ | ⟨r, q, rfl, hpop, rfl⟩
  · exact ⟨pushAll_conserved hcons post, heff.mirrored hm⟩
  · refine ⟨hcons.pop hpop, ?_⟩
    cases hcell : r.closure with
    | openCb e =>
        -- the mirror follows an event, and the event an opening
        have hopened := hm.opened (hrep.opened (hcons.mem_of_pop hpop) hcell)
        exact ⟨fun _ => hopened, fun _ => hopened, fun _ => hopened⟩
    | closedCb e => exact ⟨hm.opened, hm.incoming, fun h => absurd h (by simp [Chan.enter])⟩
    | errCb e => exact ⟨hm.opened, hm.incoming, fun h => absurd h (by simp [Chan.enter])⟩
    | _ => exact hm

/-- **The mirror never runs ahead.** Whenever a wrapper's `state` is `Open`, its channel was opened. -/
theorem mirrored_path {C : World → WorldAct → Prop} {w : World} (h : Path World.step C .init w)
    {d : Nat} {c : Chan} (hc : w.chan d = some c) : Mirrored c := by
  have hlane : MirroredLane d ⟨c, _⟩ := lane_path (I := MirroredLane d) (G := fun _ _ => True)
    (fun pc label incoming =>
      ⟨⟨0, reported_fresh d pc label incoming⟩, Fifo.conserved_empty, mirrored_fresh pc label incoming⟩)
    (fun _ _ _ hl _ hstep => mirroredLane_step hl hstep) (fun _ _ _ _ _ _ _ => trivial) h
    (lane_eq hc)
  exact hlane.2.2

/-! ## All or an exception -/

theorem send_iff {c : Chan} (hc : Mirrored c) (maxMessageSize : Nat) (payload : Bytes) :
    AllOrException c.isOpen payload (c.send maxMessageSize payload) ↔
      c.Sendable maxMessageSize payload := by
  by_cases hs : c.state = .Open
  · have hopen := hc.state hs
    rw [Chan.send, if_neg (not_not.mpr hs), Chan.Sendable, rtcSendMessage]
    cases hclosed : c.mIsClosed with
    | true => simp [AllOrException, Chan.isOpen, hclosed, hs]
    | false =>
        by_cases hsize : payload.length ≤ maxMessageSize
        · simp [AllOrException, Chan.isOpen, hopen, hclosed, hsize]
        · simp [AllOrException, Chan.isOpen, hopen, hclosed, hsize, hs]
  · rw [Chan.send, if_pos hs]
    exact ⟨fun _ => .inl hs, fun _ => ⟨rfl, rfl⟩⟩

theorem innerSend_iff (s : JsChannel) {payload data : Bytes} (hp : payload <+: data) :
    AllOrException (s.readyState = .open) payload
      (if s.state ≠ .Open then ⟨some .RTCException, none⟩ else s.innerSend data) ↔ s.Sendable := by
  by_cases hs : s.state = .Open
  · rw [if_neg (not_not.mpr hs), JsChannel.innerSend, JsChannel.Sendable]
    by_cases hr : s.readyState = .open
    · simp [AllOrException, hr, hp]
    · simp [AllOrException, hr, hs]
  · rw [if_pos hs]
    exact ⟨fun _ => .inl hs, fun _ => ⟨rfl, rfl⟩⟩

end HxDatachannel
