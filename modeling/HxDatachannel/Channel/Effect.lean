import HxDatachannel.Channel.Defs

/-!
# `Channel.Effect` — what one step of a channel can do

`ChanEffect d c a c' post`: the step `a` of channel `d` takes it from `c` to `c'` and queues `post`. One
named case for each branch of `Chan.act`, with its guard; the invariants of a channel are derived from
these cases. Every event a channel queues is for one of its own closures (`ChanEffect.owner`).
-/

namespace HxDatachannel

/-- The steps of a channel, by case. -/
inductive ChanEffect (d : Nat) (c : Chan) : ChanAct → Chan → Option CallbackResult → Prop where
  | triggerOpen {i buffer} (hopened : c.opened = false) (hclosed : c.mIsClosed = false)
      (hloop : c.loop i = .idle) (hi : i ≠ 0) :
      ChanEffect d c (.triggerOpen i buffer)
        { c with mIsOpen := true, mOpenTriggered := true, opened := true,
                 openCallback := (c.openCallback.call ()).1,
                 loop := Function.update c.loop i .due }
        ((c.openCallback.call ()).2.bind fun _ =>
          HxDatachannel.openCallback d c.installed c.label buffer)
  | close (hclosed : c.mIsClosed = false) :
      ChanEffect d c .close
        { c with mIsClosed := true, closedCallback := (c.closedCallback.call ()).1 }
        ((c.closedCallback.call ()).2.map fun _ => HxDatachannel.closedCallback d)
  | resetCallbacks (hclosed : c.mIsClosed = true) :
      ChanEffect d c .resetCallbacks
        { c with mOpenTriggered := false, openCallback := c.openCallback.unset,
                 closedCallback := c.closedCallback.unset, errorCallback := c.errorCallback.unset,
                 bufferedAmountLowCallback := c.bufferedAmountLowCallback.unset,
                 messageCallback := false, callbacksReset := true } none
  | triggerError {e} :
      ChanEffect d c (.triggerError e)
        { c with errorCallback := (c.errorCallback.call e).1 }
        ((c.errorCallback.call e).2.map fun e => HxDatachannel.errorCallback d e)
  | triggerBufferedAmountLow :
      ChanEffect d c .triggerBufferedAmountLow
        { c with bufferedAmountLowCallback := (c.bufferedAmountLowCallback.call ()).1 }
        ((c.bufferedAmountLowCallback.call ()).2.map fun _ =>
          HxDatachannel.bufferedAmountLowCallback d)
  | ignored {i m} (hclosed : c.mIsClosed = true) : ChanEffect d c (.incoming i m) c none
  | incoming {i m} (hclosed : c.mIsClosed = false) (hloop : c.loop i = .idle) (hi : i ≠ 0) :
      ChanEffect d c (.incoming i m)
        { c with mRecvQueue := c.mRecvQueue ++ [m], arrived := c.arrived ++ [m],
                 loop := Function.update c.loop i .due } none
  | due {i} (hloop : c.loop i = .due) :
      ChanEffect d c (.flushPendingMessages i)
        { c with loop := Function.update c.loop i (if c.mOpenTriggered then .looping else .idle) }
        none
  | looping {i} (hloop : c.loop i = .looping) :
      ChanEffect d c (.flushPendingMessages i)
        { c with loop := Function.update c.loop i (if c.messageCallback then .receiving else .idle) }
        none
  | empty {i} (hloop : c.loop i = .receiving) (hqueue : c.mRecvQueue = []) :
      ChanEffect d c (.flushPendingMessages i)
        { c with loop := Function.update c.loop i .idle } none
  | receive {i m rest} (hloop : c.loop i = .receiving) (hqueue : c.mRecvQueue = m :: rest) :
      ChanEffect d c (.flushPendingMessages i)
        { c with mRecvQueue := rest, hand := c.hand ++ [(i, m)],
                 loop := Function.update c.loop i .holding } none
  | deliver {i j m} (hloop : c.loop i = .holding)
      (hhand : c.hand.find? (fun p => p.1 = i) = some (j, m)) :
      ChanEffect d c (.flushPendingMessages i)
        { c with hand := c.hand.eraseP (fun p => p.1 = i),
                 loop := Function.update c.loop i .looping }
        (if c.messageCallback then some (HxDatachannel.messageCallback d m.data m.size) else none)
  | userPointer {buffer} (hw : c.wrapper = .unmade) :
      ChanEffect d c (.make buffer) { c with wrapper := .userPointer } none
  | setOpen {buffer} (hw : c.wrapper = .userPointer) :
      ChanEffect d c (.make buffer)
        { c with wrapper := .openCallback, openCallback := c.openCallback.set.1 } none
  | setClosed {buffer} (hw : c.wrapper = .openCallback) :
      ChanEffect d c (.make buffer)
        { c with wrapper := .closedCallback, closedCallback := c.closedCallback.set.1 }
        (c.closedCallback.set.2.map fun _ => HxDatachannel.closedCallback d)
  | setError {buffer} (hw : c.wrapper = .closedCallback) :
      ChanEffect d c (.make buffer)
        { c with wrapper := .errorCallback, errorCallback := c.errorCallback.set.1 }
        (c.errorCallback.set.2.map fun e => HxDatachannel.errorCallback d e)
  | setMessage {buffer} (hw : c.wrapper = .errorCallback) :
      ChanEffect d c (.make buffer)
        { c with wrapper := .messageCallback, messageCallback := true,
                 loop := Function.update c.loop 0 .due } none
  | setBufferedAmountLow {buffer} (hw : c.wrapper = .messageCallback) (hloop : c.loop 0 = .idle) :
      ChanEffect d c (.make buffer)
        { c with wrapper := .bufferedAmountLowCallback,
                 bufferedAmountLowCallback := c.bufferedAmountLowCallback.set.1 }
        (c.bufferedAmountLowCallback.set.2.map fun _ => HxDatachannel.bufferedAmountLowCallback d)
  | install {buffer} (hw : c.wrapper = .bufferedAmountLowCallback) :
      ChanEffect d c (.make buffer) { c with wrapper := .installed, state := .Closed } none
  | announce {buffer} (hw : c.wrapper = .installed) (hin : c.incoming = true) :
      ChanEffect d c (.make buffer) { c with wrapper := .announced, state := .Open } none

/-- The replay of a missed open during the registration queues nothing: `openCb` is still NULL. -/
theorem replay_open (d : Nat) (c : Chan) (buffer : Bytes) (hw : c.wrapper = .userPointer) :
    (c.openCallback.set.2.bind fun _ =>
      HxDatachannel.openCallback d c.installed c.label buffer) = none := by
  have hinst : c.installed = false := by simp [Chan.installed, hw, Wrapper.rank]
  rw [hinst]
  cases c.openCallback.set.2 <;> rfl

theorem flush_effect {d : Nat} {c c' : Chan} {i : Nat} {post : Option CallbackResult}
    (h : c.flush d i = some (c', post)) : ChanEffect d c (.flushPendingMessages i) c' post := by
  unfold Chan.flush at h
  split at h
  · exact absurd h (by simp)
  · rename_i hloop
    simp only [Option.some.injEq, Prod.mk.injEq] at h
    obtain ⟨rfl, rfl⟩ := h
    exact .due hloop
  · rename_i hloop
    simp only [Option.some.injEq, Prod.mk.injEq] at h
    obtain ⟨rfl, rfl⟩ := h
    exact .looping hloop
  · rename_i hloop
    split at h
    · rename_i hqueue
      simp only [Option.some.injEq, Prod.mk.injEq] at h
      obtain ⟨rfl, rfl⟩ := h
      exact .empty hloop hqueue
    · rename_i m rest hqueue
      simp only [Option.some.injEq, Prod.mk.injEq] at h
      obtain ⟨rfl, rfl⟩ := h
      exact .receive hloop hqueue
  · rename_i hloop
    split at h
    · rename_i j m hhand
      simp only [Option.some.injEq, Prod.mk.injEq] at h
      obtain ⟨rfl, rfl⟩ := h
      exact .deliver hloop hhand
    · exact absurd h (by simp)

theorem make_effect {d : Nat} {c c' : Chan} {buffer : Bytes} {post : Option CallbackResult}
    (h : c.make d buffer = some (c', post)) : ChanEffect d c (.make buffer) c' post := by
  unfold Chan.make at h
  split at h <;> rename_i hw
  · simp only [Option.some.injEq, Prod.mk.injEq] at h
    obtain ⟨rfl, rfl⟩ := h
    exact .userPointer hw
  · rw [replay_open d c buffer hw] at h
    simp only [Option.some.injEq, Prod.mk.injEq] at h
    obtain ⟨rfl, rfl⟩ := h
    exact .setOpen hw
  · simp only [Option.some.injEq, Prod.mk.injEq] at h
    obtain ⟨rfl, rfl⟩ := h
    exact .setClosed hw
  · simp only [Option.some.injEq, Prod.mk.injEq] at h
    obtain ⟨rfl, rfl⟩ := h
    exact .setError hw
  · simp only [Option.some.injEq, Prod.mk.injEq] at h
    obtain ⟨rfl, rfl⟩ := h
    exact .setMessage hw
  · split at h
    · exact absurd h (by simp)
    · rename_i hloop
      simp only [Option.some.injEq, Prod.mk.injEq] at h
      obtain ⟨rfl, rfl⟩ := h
      exact .setBufferedAmountLow hw (not_not.mp hloop)
  · simp only [Option.some.injEq, Prod.mk.injEq] at h
    obtain ⟨rfl, rfl⟩ := h
    exact .install hw
  · simp only [Option.ite_none_right_eq_some, Option.some.injEq, Prod.mk.injEq] at h
    obtain ⟨hin, rfl, rfl⟩ := h
    exact .announce hw hin
  · exact absurd h (by simp)

/-- **Inversion.** Every step of a channel is one of the cases of `ChanEffect`. -/
theorem chan_effect {d : Nat} {c c' : Chan} {a : ChanAct} {post : Option CallbackResult}
    (h : c.act d a = some (c', post)) : ChanEffect d c a c' post := by
  cases a with
  | triggerOpen i buffer =>
      simp only [Chan.act, Option.ite_none_left_eq_some, not_or, not_not, Option.some.injEq,
        Prod.mk.injEq] at h
      obtain ⟨⟨hopened, hclosed, hloop, hi⟩, rfl, rfl⟩ := h
      exact .triggerOpen (by simpa using hopened) (by simpa using hclosed) hloop hi
  | close =>
      simp only [Chan.act, Option.ite_none_left_eq_some, Option.some.injEq, Prod.mk.injEq] at h
      obtain ⟨hclosed, rfl, rfl⟩ := h
      exact .close (by simpa using hclosed)
  | resetCallbacks =>
      simp only [Chan.act, Option.ite_none_right_eq_some, Option.some.injEq, Prod.mk.injEq] at h
      obtain ⟨⟨hclosed, -⟩, rfl, rfl⟩ := h
      exact .resetCallbacks hclosed
  | triggerError e =>
      simp only [Chan.act, Option.some.injEq, Prod.mk.injEq] at h
      obtain ⟨rfl, rfl⟩ := h
      exact .triggerError
  | triggerBufferedAmountLow =>
      simp only [Chan.act, Option.some.injEq, Prod.mk.injEq] at h
      obtain ⟨rfl, rfl⟩ := h
      exact .triggerBufferedAmountLow
  | incoming i m =>
      simp only [Chan.act, Option.ite_none_left_eq_some, not_or, not_not] at h
      obtain ⟨⟨hloop, hi⟩, h⟩ := h
      split at h
      · rename_i hclosed
        simp only [Option.some.injEq, Prod.mk.injEq] at h
        obtain ⟨rfl, rfl⟩ := h
        exact .ignored hclosed
      · rename_i hclosed
        simp only [Option.some.injEq, Prod.mk.injEq] at h
        obtain ⟨rfl, rfl⟩ := h
        exact .incoming (by simpa using hclosed) hloop hi
  | flushPendingMessages i => exact flush_effect h
  | make buffer => exact make_effect h

/-- A step of a lane is a step of its channel, or takes its next event. -/
theorem lane_cases {d : Nat} {l l' : Lane} {b : LaneAct} (h : l.step d b = some l') :
    (∃ a c' post, b = .chan a ∧ ChanEffect d l.chan a c' post ∧
      l' = ⟨c', pushAll l.events post⟩) ∨
    (∃ r q, b = .enter ∧ l.events.pop = some (r, q) ∧ l' = ⟨l.chan.enter r.closure, q⟩) := by
  cases b with
  | chan a =>
      obtain ⟨⟨c', post⟩, hact, rfl⟩ := Option.map_eq_some_iff.mp h
      exact .inl ⟨a, c', post, rfl, chan_effect hact, rfl⟩
  | enter =>
      obtain ⟨⟨r, q⟩, hpop, rfl⟩ := Option.map_eq_some_iff.mp h
      exact .inr ⟨r, q, rfl, hpop, rfl⟩

/-! ## The events of a channel are its own -/

/-- The channel a closure belongs to; `none` for the closures of a connection. -/
def Cell.channel : Cell → Option Nat
  | .openCb d | .closedCb d | .errCb d | .msgCb d | .bufferLowCb d => some d
  | .descCb _ | .candidateCb _ | .stateCb _ | .gatheringStateCb _ | .datachannelCb _ => none

/-- The event is for a closure of channel `d`. -/
def CallbackResult.ofChannel (d : Nat) (r : CallbackResult) : Bool := r.closure.channel = some d

theorem openCallback_closure {d : Nat} {openCb : Bool} {label buffer : Bytes} {r : CallbackResult}
    (h : HxDatachannel.openCallback d openCb label buffer = some r) :
    openCb = true ∧ r.closure = .openCb d := by
  unfold HxDatachannel.openCallback at h
  split at h
  · exact absurd h (by simp)
  · rename_i hcb
    refine ⟨by simpa using hcb, ?_⟩
    split at h <;> (obtain rfl := Option.some.inj h; rfl)

theorem messageCallback_closure (d : Nat) (message : Bytes) (size : Int) :
    (HxDatachannel.messageCallback d message size).closure = .msgCb d := by
  unfold HxDatachannel.messageCallback
  split <;> rfl

/-- **Ownership.** A channel queues events for its own closures only. -/
theorem ChanEffect.owner {d : Nat} {c c' : Chan} {a : ChanAct} {r : CallbackResult}
    (h : ChanEffect d c a c' (some r)) : r.closure.channel = some d := by
  generalize hpost : some r = post at h
  cases h with
  | triggerOpen =>
      obtain ⟨-, -, hopen⟩ := Option.bind_eq_some_iff.mp hpost.symm
      rw [(openCallback_closure hopen).2]
      rfl
  | close | triggerError | triggerBufferedAmountLow | setClosed | setError | setBufferedAmountLow =>
      obtain ⟨-, -, rfl⟩ := Option.map_eq_some_iff.mp hpost.symm
      rfl
  | deliver =>
      obtain ⟨-, hmsg⟩ := Option.ite_none_right_eq_some.mp hpost.symm
      obtain rfl := Option.some.inj hmsg
      rw [messageCallback_closure]
      rfl
  | _ => exact absurd hpost (by simp)

end HxDatachannel
