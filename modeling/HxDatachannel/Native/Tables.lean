import Mathlib.Logic.Function.Basic

/-!
# `Native.Tables` — the objects behind the C API of libdatachannel

The C API keeps its objects under integer ids. Besides the objects there is one table of user pointers, which
every callback gets handed back: an object is entered with the null pointer, and a new channel is then given
the pointer of its connection. Functions return a negative code where they fail, and then change nothing.
-/

namespace HxDatachannel.Native

/-- The callbacks that can be set on an object: the first five on a connection, the others on a channel. -/
inductive Event where
  | description
  | candidate
  | stateChange
  | gatheringState
  | dataChannel
  | opened
  | closed
  | error
  | message
  | bufferedAmountLow
deriving DecidableEq, Repr

def Event.ofConnection : Event → Bool
  | .description | .candidate | .stateChange | .gatheringState | .dataChannel => true
  | .opened | .closed | .error | .message | .bufferedAmountLow                => false

/-- The tables, for pointers of type `α`; `none` is the null pointer. -/
structure Tables (α : Type) where
  lastId            : Nat
  peerConnectionMap : Int → Bool
  dataChannelMap    : Int → Bool
  userPointerMap    : Int → Option (Option α)
  /-- The callbacks that are set on each object. -/
  callbacks         : Int → List Event

namespace Tables

variable {α : Type}

def empty : Tables α :=
  { lastId := 0, peerConnectionMap := fun _ => false, dataChannelMap := fun _ => false,
    userPointerMap := fun _ => none, callbacks := fun _ => [] }

variable (t : Tables α)

/-! ## Ids and pointers -/

/-- `++lastId` -/
def nextId : Int := (t.lastId : Int) + 1

def emplacePeerConnection : Int × Tables α :=
  (t.nextId,
    { t with
      lastId := t.lastId + 1
      peerConnectionMap := Function.update t.peerConnectionMap t.nextId true
      userPointerMap := Function.update t.userPointerMap t.nextId (some none) })

def emplaceDataChannel : Int × Tables α :=
  (t.nextId,
    { t with
      lastId := t.lastId + 1
      dataChannelMap := Function.update t.dataChannelMap t.nextId true
      userPointerMap := Function.update t.userPointerMap t.nextId (some none) })

/-- Any id can be given a pointer, also one that is no object's. -/
def rtcSetUserPointer (i : Int) (ptr : Option α) : Tables α :=
  { t with userPointerMap := Function.update t.userPointerMap i (some ptr) }

/-- Hand the pointer of a connection on to a channel of it. -/
def inheritUserPointer (pc dc : Int) : Tables α :=
  match t.userPointerMap pc with
  | some ptr => t.rtcSetUserPointer dc ptr
  | none     => t

/-! ## Objects -/

/-- `failure`: the code, less one and negated, with which the library fails, if it does. -/
def rtcCreatePeerConnection (failure : Option Nat) : Int × Tables α :=
  match failure with
  | some n => (-(n : Int) - 1, t)
  | none   => t.emplacePeerConnection

def rtcCreateDataChannelEx (pc : Int) (failure : Option Nat) : Int × Tables α :=
  if t.peerConnectionMap pc then
    match failure with
    | some n => (-(n : Int) - 1, t)
    | none   => (t.emplaceDataChannel.1, t.emplaceDataChannel.2.inheritUserPointer pc t.emplaceDataChannel.1)
  else (-1, t)

/-- A channel of the other peer, entered by the closure that `rtcSetDataChannelCallback` sets. -/
def incomingDataChannel (pc : Int) : Int × Tables α :=
  (t.emplaceDataChannel.1, t.emplaceDataChannel.2.inheritUserPointer pc t.emplaceDataChannel.1)

def rtcDeletePeerConnection (pc : Int) : Tables α :=
  if t.peerConnectionMap pc then
    { t with
      peerConnectionMap := Function.update t.peerConnectionMap pc false
      userPointerMap := Function.update t.userPointerMap pc none }
  else t

def rtcDeleteDataChannel (dc : Int) : Tables α :=
  if t.dataChannelMap dc then
    { t with
      dataChannelMap := Function.update t.dataChannelMap dc false
      userPointerMap := Function.update t.userPointerMap dc none }
  else t

/-! ## Callbacks -/

/-- Whether there is an object with this id on which the callback can be set. -/
def accepts (i : Int) (e : Event) : Bool :=
  if e.ofConnection then t.peerConnectionMap i else t.dataChannelMap i

/-- `rtcSet…Callback(i, cb)` -/
def rtcSetCallback (i : Int) (e : Event) : Tables α :=
  if t.accepts i e then { t with callbacks := Function.update t.callbacks i (e :: t.callbacks i) } else t

/-- `rtcSet…Callback(i, NULL)` -/
def rtcUnsetCallback (i : Int) (e : Event) : Tables α :=
  if t.accepts i e then
    { t with callbacks := Function.update t.callbacks i ((t.callbacks i).filter (· ≠ e)) }
  else t

/-- The pointer that a callback is entered with, if it is entered. -/
def entered (i : Int) (e : Event) : Option (Option α) :=
  if e ∈ t.callbacks i then t.userPointerMap i else none

/-! ## Codes -/

variable {t}

theorem nextId_pos : 0 < t.nextId := by
  unfold nextId
  omega

theorem lastId_lt_nextId : (t.lastId : Int) < t.nextId := by
  unfold nextId
  omega

/-- A positive id is returned iff nothing fails, and else a negative code. -/
theorem rtcCreatePeerConnection_code (failure : Option Nat) :
    (failure = none ∧ (t.rtcCreatePeerConnection failure).1 = t.nextId) ∨
    (failure ≠ none ∧ (t.rtcCreatePeerConnection failure).1 < 0) := by
  cases failure with
  | none => exact .inl ⟨rfl, rfl⟩
  | some n =>
      refine .inr ⟨by simp, ?_⟩
      show -(n : Int) - 1 < 0
      omega

theorem rtcCreateDataChannelEx_code (pc : Int) (failure : Option Nat) :
    ((t.peerConnectionMap pc = true ∧ failure = none) ∧
      (t.rtcCreateDataChannelEx pc failure).1 = t.nextId) ∨
    (¬(t.peerConnectionMap pc = true ∧ failure = none) ∧ (t.rtcCreateDataChannelEx pc failure).1 < 0) := by
  unfold rtcCreateDataChannelEx
  by_cases hpc : t.peerConnectionMap pc = true
  · rw [if_pos hpc]
    cases failure with
    | none => exact .inl ⟨⟨hpc, rfl⟩, rfl⟩
    | some n =>
        refine .inr ⟨by simp, ?_⟩
        show -(n : Int) - 1 < 0
        omega
  · rw [if_neg hpc]
    exact .inr ⟨fun h => hpc h.1, by show (-1 : Int) < 0; decide⟩

/-! ## What the functions leave alone -/

/-- Only ids that were handed out have an object or a callback. -/
def Bounded (t : Tables α) : Prop :=
  ∀ i, t.peerConnectionMap i = true ∨ t.dataChannelMap i = true ∨ t.callbacks i ≠ [] →
    0 < i ∧ i ≤ (t.lastId : Int)

/-- `t'` has more ids; those of `t` have the pointers they had, and no callback was set. -/
structure Extends (t t' : Tables α) : Prop where
  lastId    : t.lastId ≤ t'.lastId
  callbacks : t'.callbacks = t.callbacks
  pointers  : ∀ i, i ≤ (t.lastId : Int) → t'.userPointerMap i = t.userPointerMap i

theorem Extends.refl (t : Tables α) : Extends t t := ⟨Nat.le_refl _, rfl, fun _ _ => rfl⟩

theorem bounded_empty : (empty : Tables α).Bounded := by
  intro i h
  simp [empty] at h

/-- The next id is not among the old ones. -/
theorem ne_nextId {i : Int} (h : i ≤ (t.lastId : Int)) : i ≠ t.nextId :=
  Int.ne_of_lt (Int.lt_of_le_of_lt h lastId_lt_nextId)

/-- Replacing a table at the next id leaves the others alone. -/
theorem update_nextId {β : Type} (f : Int → β) (b : β) {i : Int} (h : i ≤ (t.lastId : Int)) :
    Function.update f t.nextId b i = f i :=
  Function.update_of_ne (ne_nextId h) b f

theorem update_lastId {f : Int → Bool} {i : Int} (h : Function.update f t.nextId true i = true)
    (hf : f i = true → 0 < i ∧ i ≤ (t.lastId : Int)) : 0 < i ∧ i ≤ ((t.lastId + 1 : Nat) : Int) := by
  by_cases hi : i = t.nextId
  · rw [hi]
    refine ⟨nextId_pos, ?_⟩
    unfold nextId
    omega
  · rw [Function.update_of_ne hi] at h
    have hle := hf h
    omega

theorem emplacePeerConnection_spec (h : t.Bounded) :
    t.emplacePeerConnection.2.Bounded ∧ Extends t t.emplacePeerConnection.2 := by
  refine ⟨?_, ⟨Nat.le_succ _, rfl, fun i hi => update_nextId _ _ hi⟩⟩
  intro i hi
  rcases hi with hi | hi
  · exact update_lastId hi fun h' => h i (.inl h')
  · have hle := h i (.inr hi)
    show 0 < i ∧ i ≤ ((t.lastId + 1 : Nat) : Int)
    omega

theorem emplaceDataChannel_spec (h : t.Bounded) :
    t.emplaceDataChannel.2.Bounded ∧ Extends t t.emplaceDataChannel.2 := by
  refine ⟨?_, ⟨Nat.le_succ _, rfl, fun i hi => update_nextId _ _ hi⟩⟩
  intro i hi
  show 0 < i ∧ i ≤ ((t.lastId + 1 : Nat) : Int)
  rcases hi with hi | hi | hi
  · have hle := h i (.inl hi)
    omega
  · exact update_lastId hi fun h' => h i (.inr (.inl h'))
  · have hle := h i (.inr (.inr hi))
    omega

/-- The new id is positive, and has no callback yet. -/
theorem nextId_fresh (h : t.Bounded) : t.callbacks t.nextId = [] := by
  by_contra hne
  exact ne_nextId (h _ (.inr (.inr hne))).2 rfl

theorem incomingDataChannel_spec (h : t.Bounded) (pc : Int) :
    (t.incomingDataChannel pc).1 = t.nextId ∧ (t.incomingDataChannel pc).2.Bounded ∧
      Extends t (t.incomingDataChannel pc).2 ∧
      (t.incomingDataChannel pc).2.lastId = t.lastId + 1 := by
  obtain ⟨hbounded, hextends⟩ := emplaceDataChannel_spec h
  unfold incomingDataChannel inheritUserPointer
  split
  · refine ⟨rfl, hbounded, ⟨hextends.lastId, hextends.callbacks, ?_⟩, rfl⟩
    intro i hi
    rw [← hextends.pointers i hi]
    exact update_nextId _ _ hi
  · exact ⟨rfl, hbounded, hextends, rfl⟩

theorem incomingDataChannel_toNat (pc : Int) :
    (((t.incomingDataChannel pc).1.toNat : Nat) : Int) = t.nextId :=
  Int.toNat_of_nonneg (Int.le_of_lt nextId_pos)

/-- **What a creation returns.** An id up to the last one, under which no callback is set: the next one, or
    a negative code. -/
structure Creates (t : Tables α) (created : Int × Tables α) : Prop where
  bounded : created.2.Bounded
  extend  : Extends t created.2
  le      : created.1 ≤ (created.2.lastId : Int)
  fresh   : created.2.callbacks created.1 = []
  new     : created.1 < 0 ∨ created.1 = t.nextId

theorem creates_nextId (h : t.Bounded) {t' : Tables α} (hbounded : t'.Bounded) (hextends : Extends t t')
    (hlast : t'.lastId = t.lastId + 1) : Creates t (t.nextId, t') := by
  refine ⟨hbounded, hextends, ?_, ?_, .inr rfl⟩
  · show t.nextId ≤ (t'.lastId : Int)
    unfold nextId
    omega
  · rw [hextends.callbacks]
    exact nextId_fresh h

theorem creates_failure (h : t.Bounded) {code : Int} (hcode : code < 0) : Creates t (code, t) := by
  refine ⟨h, .refl t, ?_, ?_, .inl hcode⟩
  · show code ≤ (t.lastId : Int)
    omega
  · by_contra hne
    have hpos := (h code (.inr (.inr hne))).1
    omega

theorem rtcCreatePeerConnection_spec (h : t.Bounded) (failure : Option Nat) :
    Creates t (t.rtcCreatePeerConnection failure) := by
  cases failure with
  | none =>
      obtain ⟨hbounded, hextends⟩ := emplacePeerConnection_spec h
      exact creates_nextId h hbounded hextends rfl
  | some n => exact creates_failure h (by omega)

theorem rtcCreateDataChannelEx_spec (h : t.Bounded) (pc : Int) (failure : Option Nat) :
    Creates t (t.rtcCreateDataChannelEx pc failure) := by
  unfold rtcCreateDataChannelEx
  split
  · cases failure with
    | none =>
        obtain ⟨-, hbounded, hextends, hlast⟩ := incomingDataChannel_spec h pc
        exact creates_nextId h hbounded hextends hlast
    | some n => exact creates_failure h (by omega)
  · exact creates_failure h (by omega)

/-- A callback is set on an object only, and then it is one more on this id. -/
theorem rtcSetCallback_spec (h : t.Bounded) (i : Int) (e : Event) :
    (t.rtcSetCallback i e).Bounded ∧ (t.rtcSetCallback i e).lastId = t.lastId ∧
      (t.rtcSetCallback i e).userPointerMap = t.userPointerMap ∧
      (∀ j, j ≠ i → (t.rtcSetCallback i e).callbacks j = t.callbacks j) ∧
      ∀ e' ∈ (t.rtcSetCallback i e).callbacks i, e' = e ∨ e' ∈ t.callbacks i := by
  unfold rtcSetCallback
  split
  · rename_i haccepts
    have hobject : t.peerConnectionMap i = true ∨ t.dataChannelMap i = true := by
      unfold accepts at haccepts
      split at haccepts
      · exact .inl haccepts
      · exact .inr haccepts
    refine ⟨?_, rfl, rfl, fun j hj => Function.update_of_ne hj _ _, ?_⟩
    · intro j hj
      by_cases hji : j = i
      · subst hji
        exact h j (hobject.imp_right .inl)
      · have hsame : Function.update t.callbacks i (e :: t.callbacks i) j = t.callbacks j :=
          Function.update_of_ne hji _ _
        simp only [hsame] at hj
        exact h j hj
    · intro e' he'
      simp only [Function.update_self] at he'
      exact List.mem_cons.mp he'
  · exact ⟨h, rfl, rfl, fun _ _ => rfl, fun _ => .inr⟩

end Tables
end HxDatachannel.Native
