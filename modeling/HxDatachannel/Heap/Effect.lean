import HxDatachannel.Heap.Defs

/-!
# `Heap.Effect` — what one step of the program can do to its memory

The cases of `State.step`, with their guards (`Effect`, `effect_of_step`); finalizing a wrapper stands apart,
since no invariant is meant to survive it. The lemmas on `set` and `alloc` come first.
-/

namespace HxDatachannel.Heap

open Native

namespace State

variable {s : State}

/-! ## Reading what was written -/

theorem wrapper_eq_some {a : Addr} {w : Wrapper} : s.wrapper a = some w ↔ s.block a = some (.wrapper w) := by
  unfold wrapper
  split
  · rename_i w' hw
    simp [hw]
  · rename_i hne
    exact ⟨fun h => absurd h (by simp), fun h => absurd h (hne w)⟩

theorem object_eq_some {a : Addr} {o : Object} : s.object a = some o ↔ s.block a = some (.object o) := by
  unfold object
  split
  · rename_i o' ho
    simp [ho]
  · rename_i hne
    exact ⟨fun h => absurd h (by simp), fun h => absurd h (hne o)⟩

@[simp] theorem set_block_self (a : Addr) (b : Block) : (s.set a b).block a = some b :=
  Function.update_self ..

theorem set_block_ne {a a' : Addr} (h : a' ≠ a) (b : Block) : (s.set a b).block a' = s.block a' :=
  Function.update_of_ne h ..

@[simp] theorem alloc_block_self (b : Block) : (s.alloc b).block s.next = some b :=
  Function.update_self ..

theorem alloc_block_ne {a : Addr} (h : a ≠ s.next) (b : Block) : (s.alloc b).block a = s.block a :=
  Function.update_of_ne h ..

end State

/-! ## The cases -/

/-- The steps other than finalizing. -/
inductive Effect (s : State) : State → Prop where
  | hold {bs} (hrun : applicationRuns s.stack) : Effect s { s with held := bs }
  | link {o dcs bs ob} (hrun : applicationRuns s.stack) (ho : s.object o = some ob) :
      Effect s (s.set o (.object { ob with dataChannels := dcs, links := bs }))
  | allocate (hrun : applicationRuns s.stack) :
      Effect s { s.alloc (.object .plain) with held := s.next :: s.held }
  | newPeerConnection {failure} (hrun : applicationRuns s.stack) : Effect s (s.newPeerConnection failure)
  | createDatachannel {o failure pc} (hrun : applicationRuns s.stack) :
      Effect s { s with
        native := (s.native.rtcCreateDataChannelEx pc failure).2
        stack := .creating (.createDatachannel o) (s.native.rtcCreateDataChannelEx pc failure).1 :: s.stack }
  | processEvents (hrun : applicationRuns s.stack) : Effect s { s with stack := .announcing :: s.stack }
  | make {caller id rest} (hs : s.stack = .creating caller id :: rest) :
      Effect s { s.alloc (.wrapper (.alloc caller.ofConnection id)) with
        stack := .allocated caller s.next :: rest }
  | point {caller a w rest} (hs : s.stack = .allocated caller a :: rest) (hw : s.wrapper a = some w) :
      Effect s { s with
        native := s.native.rtcSetUserPointer w.id (some a)
        stack := .registering caller a (registrations caller.ofConnection) :: rest }
  | register {caller a e todo w rest} (hs : s.stack = .registering caller a (e :: todo) :: rest)
      (hw : s.wrapper a = some w) :
      Effect s { s with
        native := s.native.rtcSetCallback w.id e, stack := .registering caller a todo :: rest }
  | assignInner {o a ob rest} (hs : s.stack = .registering (.newPeerConnection o) a [] :: rest)
      (ho : s.object o = some ob) :
      Effect s { s.set o (.object { ob with inner := some a }) with
        stack := .installing o a (registrations true) .connection :: rest }
  | created {pc a rest} (hs : s.stack = .registering (.createDatachannel pc) a [] :: rest) :
      Effect s { s with stack := .constructing a pc false :: rest }
  | announced {x a rest c e owner} (hs : s.stack = .registering (.announced x) a [] :: rest)
      (hcell : s.cell x.node.pc .dataChannel = some c) (hc : s.block c = some (.closure e owner)) :
      Effect s { s with stack := .constructing a owner true :: rest }
  | announcedNone {x a rest c} (hs : s.stack = .registering (.announced x) a [] :: rest)
      (hcell : s.cell x.node.pc .dataChannel = some c) (hc : ∀ e owner, s.block c ≠ some (.closure e owner)) :
      Effect s { s with stack := .handling c :: rest }
  | announcedNull {x a rest} (hs : s.stack = .registering (.announced x) a [] :: rest)
      (hcell : s.cell x.node.pc .dataChannel = none) : Effect s { s with nullCall := true }
  | construct {a pc incoming rest} (hs : s.stack = .constructing a pc incoming :: rest) :
      Effect s { s.alloc (.object ⟨some a, some pc, [], []⟩) with
        stack := .installing s.next a (registrations false) (.channel pc incoming) :: rest }
  | install {o a e todo site w rest} (hs : s.stack = .installing o a (e :: todo) site :: rest)
      (hw : s.wrapper a = some w) :
      Effect s { (s.alloc (.closure e o)).set a (.wrapper (w.setCell e s.next)) with
        stack := .installing o a todo site :: rest }
  | installedConnection {o a rest} (hs : s.stack = .installing o a [] .connection :: rest) :
      Effect s { s with stack := .registeringDatachannel o a :: rest }
  | installedAll {o a rest} (hs : s.stack = .installing o a [] .datachannelCb :: rest) :
      Effect s { s with stack := rest }
  | installedChannel {o a pc incoming rest} (hs : s.stack = .installing o a [] (.channel pc incoming) :: rest) :
      Effect s { s with stack := .pushing pc o incoming :: rest }
  | registerDatachannel {o a w rest} (hs : s.stack = .registeringDatachannel o a :: rest)
      (hw : s.wrapper a = some w) :
      Effect s { s with
        native := s.native.rtcSetCallback w.id .dataChannel
        stack := .installing o a [.dataChannel] .datachannelCb :: rest }
  | push {pc o incoming ob rest} (hs : s.stack = .pushing pc o incoming :: rest)
      (ho : s.object pc = some ob) :
      Effect s { s.set pc (.object { ob with dataChannels := ob.dataChannels ++ [o] }) with
        stack := if incoming then .onDataChannel pc o :: rest else rest }
  | popAnnouncement {x xs rest} (hs : s.stack = .announcing :: rest) (hx : s.announcements = x :: xs) :
      Effect s { s with announcements := xs, stack := .creating (.announced x) x.node.dc :: rest }
  | noAnnouncement {rest} (hs : s.stack = .announcing :: rest) (hx : s.announcements = []) :
      Effect s { s with stack := .draining :: rest }
  | handle {n ns c rest} (hs : s.stack = .draining :: rest) (hn : s.results = n :: ns)
      (hcell : s.cell n.result.closure.owner n.result.closure.event = some c) :
      Effect s { s with results := ns, stack := .handling c :: rest }
  | nullCall {n ns rest} (hs : s.stack = .draining :: rest) (hn : s.results = n :: ns)
      (hcell : s.cell n.result.closure.owner n.result.closure.event = none) :
      Effect s { s with nullCall := true }
  | drained {rest} (hs : s.stack = .draining :: rest) : Effect s { s with stack := rest }
  | retOnDataChannel {pc o rest} (hs : s.stack = .onDataChannel pc o :: rest) :
      Effect s { s with stack := .announcing :: rest }
  | retHandling {c rest} (hs : s.stack = .handling c :: rest) : Effect s { s with stack := .draining :: rest }
  | throwOnDataChannel {pc o rest} (hs : s.stack = .onDataChannel pc o :: rest) :
      Effect s { s with stack := rest }
  | throwHandling {c rest} (hs : s.stack = .handling c :: rest) : Effect s { s with stack := rest }
  | raise {i ptr r} {cb : NativeCallback} (hent : s.native.entered i cb.event = some (some ptr))
      (hpost : (cb.withPointer ptr (s.cell ptr .opened).isSome).post = some (.result r)) :
      Effect s { s with results := s.results ++ [⟨r, cb.event, i⟩] }
  | ignored : Effect s s
  | incoming {pc ptr} (hent : s.native.entered pc .dataChannel = some (some ptr)) :
      Effect s { s with
        native := (s.native.incomingDataChannel pc).2
        announcements := s.announcements ++
          [⟨dataChannelCallback ptr (s.native.incomingDataChannel pc).1.toNat, pc⟩] }
  | close {i} : Effect s { s with closed := Function.update s.closed i true }

namespace State

theorem dynCall_announced {s : State} {x : Announcement} {a : Addr} {rest : List Frame} (label buffer : Bytes)
    (hs : s.stack = .registering (.announced x) a [] :: rest) :
    s.dynCall label buffer =
      some { closure := s.cell x.node.pc .dataChannel
             args := some [.wrapper a, .value (.bytes (announcedName label buffer))]
             event := .dataChannel, raisedBy := x.raisedBy } := by
  simp only [dynCall, hs]

theorem dynCall_draining {s : State} {n : Node} {ns : List Node} {rest : List Frame} (label buffer : Bytes)
    (hs : s.stack = .draining :: rest) (hn : s.results = n :: ns) :
    s.dynCall label buffer =
      some { closure := s.cell n.result.closure.owner n.result.closure.event
             args := n.result.callArgs.map fun vs => vs.map .value
             event := n.event, raisedBy := n.raisedBy } := by
  simp only [dynCall, hs, hn, List.head?_cons, Option.map_some]

theorem effect_of_advance {s s' : State} {label buffer : Bytes} (h : s.advance label buffer = some s') :
    Effect s s' := by
  unfold advance at h
  split at h
  · rename_i caller id rest hs
    obtain rfl := Option.some.inj h
    exact .make hs
  · rename_i caller a rest hs
    obtain ⟨w, hw, rfl⟩ := Option.map_eq_some_iff.mp h
    exact .point hs hw
  · rename_i caller a e todo rest hs
    obtain ⟨w, hw, rfl⟩ := Option.map_eq_some_iff.mp h
    exact .register hs hw
  · rename_i o a rest hs
    obtain ⟨ob, ho, rfl⟩ := Option.map_eq_some_iff.mp h
    exact .assignInner hs ho
  · rename_i pc a rest hs
    obtain rfl := Option.some.inj h
    exact .created hs
  · rename_i x a rest hs
    rw [dynCall_announced label buffer hs, Option.map_some, Option.some.injEq] at h
    subst h
    split
    · rename_i c hcell
      unfold enter
      split
      · rename_i a' e owner ha hc
        obtain rfl := Option.some.inj ha
        exact .announced hs hcell hc
      · rename_i hne
        exact .announcedNone hs hcell fun e owner => hne a e owner rfl
    · rename_i hcell
      exact .announcedNull hs hcell
  · rename_i a pc incoming rest hs
    obtain rfl := Option.some.inj h
    exact .construct hs
  · rename_i o a e todo site rest hs
    obtain ⟨w, hw, rfl⟩ := Option.map_eq_some_iff.mp h
    exact .install hs hw
  · rename_i o a rest hs
    obtain rfl := Option.some.inj h
    exact .installedConnection hs
  · rename_i o a rest hs
    obtain rfl := Option.some.inj h
    exact .installedAll hs
  · rename_i o a pc incoming rest hs
    obtain rfl := Option.some.inj h
    exact .installedChannel hs
  · rename_i o a rest hs
    obtain ⟨w, hw, rfl⟩ := Option.map_eq_some_iff.mp h
    exact .registerDatachannel hs hw
  · rename_i pc o incoming rest hs
    obtain ⟨ob, ho, rfl⟩ := Option.map_eq_some_iff.mp h
    exact .push hs ho
  · rename_i rest hs
    split at h
    · rename_i x xs hx
      obtain rfl := Option.some.inj h
      exact .popAnnouncement hs hx
    · rename_i hx
      obtain rfl := Option.some.inj h
      exact .noAnnouncement hs hx
  · rename_i rest hs
    split at h
    · rename_i n ns hn
      rw [dynCall_draining label buffer hs hn, Option.map_some, Option.some.injEq] at h
      subst h
      split
      · rename_i c hcell
        exact .handle hs hn hcell
      · rename_i hcell
        exact .nullCall hs hn hcell
    · obtain rfl := Option.some.inj h
      exact .drained hs
  · exact absurd h (by simp)

theorem effect_of_raise {s s' : State} {i : Int} {cb : NativeCallback} (h : s.raise i cb = some s') :
    Effect s s' := by
  unfold raise at h
  split at h
  · rename_i ptr hent
    split at h
    · rename_i r hpost
      obtain rfl := Option.some.inj h
      exact .raise hent hpost
    · exact absurd h (by simp)
    · obtain rfl := Option.some.inj h
      exact .ignored
  · exact absurd h (by simp)

theorem effect_of_incoming {s s' : State} {pc : Int} (h : s.incoming pc = some s') : Effect s s' := by
  unfold incoming at h
  split at h
  · rename_i ptr hent
    obtain rfl := Option.some.inj h
    exact .incoming hent
  · exact absurd h (by simp)

/-- **Inversion.** A step finalizes a wrapper that was not finalized, or it is one of the cases of `Effect`. -/
theorem effect_of_step {s s' : State} {act : Act} (h : s.step act = some s') :
    (∃ a w, act = .collect a ∧ s.wrapper a = some w ∧ w.finalized = false) ∨ Effect s s' := by
  unfold step at h
  split at h
  · exact absurd h (by simp)
  · cases act with
    | hold bs =>
        simp only [Option.ite_none_right_eq_some, Option.some.injEq] at h
        obtain ⟨hrun, rfl⟩ := h
        exact .inr (.hold hrun)
    | link o dcs bs =>
        simp only [Option.ite_none_right_eq_some] at h
        obtain ⟨hrun, h⟩ := h
        obtain ⟨ob, ho, rfl⟩ := Option.map_eq_some_iff.mp h
        exact .inr (.link hrun ho)
    | allocate =>
        simp only [Option.ite_none_right_eq_some, Option.some.injEq] at h
        obtain ⟨hrun, rfl⟩ := h
        exact .inr (.allocate hrun)
    | newPeerConnection failure =>
        simp only [Option.ite_none_right_eq_some, Option.some.injEq] at h
        obtain ⟨hrun, rfl⟩ := h
        exact .inr (.newPeerConnection hrun)
    | createDatachannel o failure =>
        simp only [Option.ite_none_right_eq_some] at h
        obtain ⟨hrun, h⟩ := h
        obtain ⟨ob, -, h⟩ := Option.bind_eq_some_iff.mp h
        obtain ⟨a, -, h⟩ := Option.bind_eq_some_iff.mp h
        obtain ⟨w, -, h⟩ := Option.bind_eq_some_iff.mp h
        simp only [Option.ite_none_right_eq_some, Option.some.injEq] at h
        obtain ⟨-, rfl⟩ := h
        exact .inr (.createDatachannel hrun)
    | processEvents =>
        simp only [Option.ite_none_right_eq_some, Option.some.injEq] at h
        obtain ⟨hrun, rfl⟩ := h
        exact .inr (.processEvents hrun)
    | advance label buffer => exact .inr (effect_of_advance h)
    | exhausted =>
        simp only at h
        split at h
        · rename_i rest hs
          obtain rfl := Option.some.inj h
          exact .inr (.drained hs)
        · exact absurd h (by simp)
    | ret =>
        simp only at h
        split at h
        · rename_i pc o rest hs
          obtain rfl := Option.some.inj h
          exact .inr (.retOnDataChannel hs)
        · rename_i c rest hs
          obtain rfl := Option.some.inj h
          exact .inr (.retHandling hs)
        · exact absurd h (by simp)
    | throw =>
        simp only at h
        split at h
        · rename_i pc o rest hs
          obtain rfl := Option.some.inj h
          exact .inr (.throwOnDataChannel hs)
        · rename_i c rest hs
          obtain rfl := Option.some.inj h
          exact .inr (.throwHandling hs)
        · exact absurd h (by simp)
    | raise i cb => exact .inr (effect_of_raise h)
    | incoming pc => exact .inr (effect_of_incoming h)
    | close i =>
        obtain rfl := Option.some.inj h
        exact .inr .close
    | collect a =>
        obtain ⟨w, hw, h⟩ := Option.bind_eq_some_iff.mp h
        simp only [Option.ite_none_left_eq_some] at h
        exact .inl ⟨a, w, rfl, hw, by simpa using h.1⟩

end State
end HxDatachannel.Heap
