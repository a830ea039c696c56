import HxDatachannel.Base.Transducer
import Mathlib.Logic.Function.Basic

/-!
# `Connection.State` — the state fields and the handlers that report a state

Both backends keep the last reported connection state and gathering state in a field of the wrapper, and call a
handler with it. The HL closures call the handler first; a handler that throws skips the assignment, and one
that calls `processEvents` lets later events in before it. The JS closures assign first, but their case for
`completed` is empty. `state_reported` says for both in which runs handlers find the field up to date, and in
which it follows the last event.
-/

namespace HxDatachannel.State

open Transducer

/-- The two fields of the wrapper, each with its handler. -/
inductive Field where
  | state
  | gatheringState
deriving DecidableEq, Repr

/-! ## HL -/

/-- Both fields are integers, which HashLink sets to 0: `RTC_NEW` and `RTC_GATHERING_NEW`. `latest` is the
    event that came last, `stack` the handlers that are running, the innermost first, each with the event that
    it was called for. -/
structure HlConnection where
  field  : Field → Int
  latest : Field → Option Int
  stack  : List (Field × Int)

def HlConnection.new : HlConnection := { field := fun _ => 0, latest := fun _ => none, stack := [] }

/-- `enter`: `processEvents` dispatches an event, at the top or in a handler. What an exception does to an
    enclosing handler is that handler's own end. -/
inductive HlAct where
  | enter (f : Field) (a : Int)
  | returns
  | throws
deriving DecidableEq, Repr

/-- `(a) -> { onStateChange(a); state = a; }`, and the same for the gathering state; with the calls of
    handlers. -/
def stepHL (c : HlConnection) : HlAct → HlConnection × List (Field × Int)
  | .enter f a =>
      ({ c with latest := Function.update c.latest f (some a), stack := (f, a) :: c.stack }, [(f, a)])
  | .returns =>
      match c.stack with
      | (f, a) :: stack => ({ c with field := Function.update c.field f a, stack }, [])
      | []              => (c, [])
  | .throws =>
      match c.stack with
      | _ :: stack => ({ c with stack }, [])
      | []         => (c, [])

/-- A handler is called with what the field holds, and when it ends the field holds the event that came
    last. -/
def ExpectedHL (c : HlConnection) (a : HlAct) : Prop :=
  (∀ p ∈ (stepHL c a).2, c.field p.1 = p.2) ∧
  match a with
  | .enter _ _         => True
  | .returns | .throws => ∀ p ∈ c.stack.head?, some ((stepHL c a).1.field p.1) = c.latest p.1

/-- The event reports the state in which every connection begins. -/
def GoodHL (_ : HlConnection) : HlAct → Prop
  | .enter _ a         => a = 0
  | .returns | .throws => True

/-- While only `RTC_NEW` and `RTC_GATHERING_NEW` are reported. -/
structure AllNew (c : HlConnection) : Prop where
  field : ∀ f, c.field f = 0
  stack : ∀ p ∈ c.stack, p.2 = 0 ∧ c.latest p.1 = some 0

theorem allNew_enter {c : HlConnection} (h : AllNew c) (f : Field) : AllNew (stepHL c (.enter f 0)).1 := by
  refine ⟨h.field, ?_⟩
  intro p hp
  rcases List.mem_cons.mp hp with rfl | hp
  · exact ⟨rfl, Function.update_self ..⟩
  · refine ⟨(h.stack p hp).1, ?_⟩
    show Function.update c.latest f (some 0) p.1 = some 0
    by_cases hf : p.1 = f
    · rw [hf, Function.update_self]
    · rw [Function.update_of_ne hf]
      exact (h.stack p hp).2

/-- A handler that ends leaves the field at 0, whether it throws or not. -/
theorem allNew_end {c : HlConnection} (h : AllNew c) {a : HlAct} (ha : a = .returns ∨ a = .throws) :
    AllNew (stepHL c a).1 ∧ ∀ p ∈ c.stack.head?, some ((stepHL c a).1.field p.1) = c.latest p.1 := by
  have hnew : AllNew (stepHL c a).1 := by
    cases hs : c.stack with
    | nil => rcases ha with rfl | rfl <;> simp only [stepHL, hs] <;> exact h
    | cons p rest =>
        have hrest : ∀ q ∈ rest, q.2 = 0 ∧ c.latest q.1 = some 0 := fun q hq =>
          h.stack q (hs ▸ List.mem_cons_of_mem p hq)
        rcases ha with rfl | rfl
        · simp only [stepHL, hs]
          refine ⟨?_, hrest⟩
          intro f
          show Function.update c.field p.1 p.2 f = 0
          by_cases hf : f = p.1
          · rw [hf, Function.update_self]
            exact (h.stack p (hs ▸ List.mem_cons_self ..)).1
          · rw [Function.update_of_ne hf]
            exact h.field f
        · simp only [stepHL, hs]
          exact ⟨h.field, hrest⟩
  refine ⟨hnew, ?_⟩
  intro p hp
  rw [hnew.field, (h.stack p (List.mem_of_mem_head? hp)).2]

theorem expectedHL_iff {c : HlConnection} (h : AllNew c) (a : HlAct) :
    (ExpectedHL c a ↔ GoodHL c a) ∧ (GoodHL c a → AllNew (stepHL c a).1) := by
  have hsilent : a = .returns ∨ a = .throws → (stepHL c a).2 = [] := by
    rintro (rfl | rfl)
    · unfold stepHL
      dsimp only
      split <;> rfl
    · unfold stepHL
      dsimp only
      split <;> rfl
  cases a with
  | enter f a =>
      have hexpected : ExpectedHL c (.enter f a) ↔ a = 0 := by
        show (∀ p ∈ [(f, a)], c.field p.1 = p.2) ∧ True ↔ a = 0
        rw [and_true, List.forall_mem_singleton, h.field]
        exact eq_comm
      refine ⟨hexpected, ?_⟩
      intro ha
      obtain rfl : a = 0 := ha
      exact allNew_enter h f
  | returns =>
      obtain ⟨hnew, hlatest⟩ := allNew_end h (.inl rfl)
      refine ⟨iff_of_true ⟨?_, hlatest⟩ trivial, fun _ => hnew⟩
      intro p hp
      exact absurd hp (by simp [hsilent (.inl rfl)])
  | throws =>
      obtain ⟨hnew, hlatest⟩ := allNew_end h (.inr rfl)
      refine ⟨iff_of_true ⟨?_, hlatest⟩ trivial, fun _ => hnew⟩
      intro p hp
      exact absurd hp (by simp [hsilent (.inr rfl)])

/-! ## JS -/

inductive RTCState where
  | NEW
  | CONNECTING
  | CONNECTED
  | DISCONNECTED
  | FAILED
  | CLOSED
deriving DecidableEq, Repr

inductive RTCGatheringState where
  | NEW
  | INPROGRESS
  | COMPLETE
deriving DecidableEq, Repr

/-- The browser's `iceConnectionState`. -/
inductive IceConnectionState where
  | new
  | checking
  | connected
  | completed
  | disconnected
  | failed
  | closed
deriving DecidableEq, Repr

inductive IceGatheringState where
  | new
  | gathering
  | complete
deriving DecidableEq, Repr

/-- The fields are undefined (`none`) until something is reported. -/
structure JsConnection where
  state          : Option RTCState
  gatheringState : Option RTCGatheringState
deriving DecidableEq, Repr

def JsConnection.new : JsConnection := ⟨none, none⟩

/-- An event, with the browser's state when it is handled. JavaScript runs a handler to its end before the
    next event, and an exception out of it goes to the browser. -/
inductive JsAct where
  | iceConnectionStateChange (s : IceConnectionState) (throws : Bool)
  | iceGatheringStateChange (g : IceGatheringState) (throws : Bool)
deriving DecidableEq, Repr

/-- The `switch` in `oniceconnectionstatechange`; the case `COMPLETED` is empty. -/
def switchState (state : Option RTCState) : IceConnectionState → Option RTCState
  | .checking     => some .CONNECTING
  | .closed       => some .CLOSED
  | .completed    => state
  | .connected    => some .CONNECTED
  | .disconnected => some .DISCONNECTED
  | .failed       => some .FAILED
  | .new          => some .NEW

def switchGathering : IceGatheringState → RTCGatheringState
  | .complete  => .COMPLETE
  | .gathering => .INPROGRESS
  | .new       => .NEW

/-- The argument of a call of a handler. -/
inductive JsCall where
  | onStateChange (s : Option RTCState)
  | onGatheringStateChange (g : Option RTCGatheringState)
deriving DecidableEq, Repr

/-- The assignment comes first, so a handler that throws makes no difference to the fields. -/
def stepJS (c : JsConnection) : JsAct → JsConnection × List JsCall
  | .iceConnectionStateChange s _ =>
      ({ c with state := switchState c.state s }, [.onStateChange (switchState c.state s)])
  | .iceGatheringStateChange g _ =>
      ({ c with gatheringState := some (switchGathering g) },
        [.onGatheringStateChange (some (switchGathering g))])

/-- What a state of the browser stands for. -/
def IceConnectionState.image : IceConnectionState → RTCState
  | .new          => .NEW
  | .checking     => .CONNECTING
  | .connected    => .CONNECTED
  | .completed    => .CONNECTED
  | .disconnected => .DISCONNECTED
  | .failed       => .FAILED
  | .closed       => .CLOSED

/-- Handlers are called with what the field holds then, and the field is the image of the browser's state. -/
def ExpectedJS (c : JsConnection) (a : JsAct) : Prop :=
  let after := (stepJS c a).1
  (∀ call ∈ (stepJS c a).2, call = .onStateChange after.state ∨
    call = .onGatheringStateChange after.gatheringState) ∧
  match a with
  | .iceConnectionStateChange s _ => after.state = some s.image
  | .iceGatheringStateChange g _  => after.gatheringState = some (switchGathering g)

/-- `completed` comes only while the field is `RTC_CONNECTED`. -/
def GoodJS (c : JsConnection) : JsAct → Prop
  | .iceConnectionStateChange s _ => s = .completed → c.state = some .CONNECTED
  | .iceGatheringStateChange _ _  => True

theorem expectedJS_iff (c : JsConnection) (a : JsAct) : ExpectedJS c a ↔ GoodJS c a := by
  cases a with
  | iceConnectionStateChange s throws =>
      have hcalls : ∀ call ∈ (stepJS c (.iceConnectionStateChange s throws)).2,
          call = .onStateChange (stepJS c (.iceConnectionStateChange s throws)).1.state ∨
          call = .onGatheringStateChange (stepJS c (.iceConnectionStateChange s throws)).1.gatheringState :=
        fun call hcall => .inl (List.mem_singleton.mp hcall)
      refine Iff.trans ⟨fun h => h.2, fun h => ⟨hcalls, h⟩⟩ ?_
      show switchState c.state s = some s.image ↔ (s = .completed → c.state = some .CONNECTED)
      cases s <;> simp [switchState, IceConnectionState.image]
  | iceGatheringStateChange g throws =>
      refine iff_of_true ⟨fun call hcall => .inr (List.mem_singleton.mp hcall), rfl⟩ trivial

/-! ## Both -/

/-- **When the fields are what was reported.** Under HL all handlers of a run find the field up to date, and it
    follows the last event, iff nothing but `RTC_NEW` and `RTC_GATHERING_NEW` is ever reported; under JS iff
    `completed` comes only while the field is `RTC_CONNECTED`. -/
theorem state_reported (hl : List HlAct) (js : List JsAct) :
    (Admits stepHL ExpectedHL .new hl ↔ Admits stepHL GoodHL .new hl) ∧
    (Admits stepJS ExpectedJS .new js ↔ Admits stepJS GoodJS .new js) := by
  constructor
  · exact admits_congr (fun _ a h => expectedHL_iff h a) ⟨fun _ => rfl, fun p hp => absurd hp List.not_mem_nil⟩
  · exact admits_congr (I := fun _ => True) (fun c a _ => ⟨expectedJS_iff c a, fun _ => trivial⟩) trivial

/-- **States that are not what was reported.** Under HL the handler for `RTC_CONNECTED` (2) finds
    `RTC_CONNECTING` (1), and if it throws the field stays so; under JS `completed` after `disconnected` leaves
    the field at `RTC_DISCONNECTED`. -/
theorem state_behind :
    let connecting := (stepHL (stepHL .new (.enter .state 1)).1 .returns).1
    let connected := stepHL connecting (.enter .state 2)
    let disconnected := (stepJS .new (.iceConnectionStateChange .disconnected false)).1
    connected.2 = [(.state, 2)] ∧ connecting.field .state = 1 ∧
      (stepHL connected.1 .throws).1.field .state = 1 ∧
      (stepJS disconnected (.iceConnectionStateChange .completed false)).1.state = some .DISCONNECTED := by
  decide

end HxDatachannel.State
