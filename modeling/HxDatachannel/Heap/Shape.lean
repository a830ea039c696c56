import HxDatachannel.Heap.Effect

/-!
# `Heap.Shape` — how a wrapper is made, and what it then holds

The invariant of the memory (`Shape`). A wrapper is complete, each of its fields holding the closure for its
event on the object whose `inner` is the wrapper; or it is being made by the call on top of the stack
(`Frame.Awaits`). What that call may rely on is `FrameOk`: the user pointer is set before the first callback is,
and on an id that has none. From a step to the next, blocks only gain (`Grows`).
-/

namespace HxDatachannel.Heap

open Native

/-! ## Facts about blocks -/

namespace State

variable (s : State)

/-- At `a` there is a wrapper of the native object `id`. -/
def Has (a : Addr) (ofConnection : Bool) (id : Int) : Prop :=
  ∃ w, s.wrapper a = some w ∧ w.ofConnection = ofConnection ∧ w.id = id

/-- The object at `o` holds the wrapper at `a`. -/
def Inner (o a : Addr) : Prop := ∃ ob, s.object o = some ob ∧ ob.inner = some a

/-- The field of `a` for `e` holds the closure for `e`, which captures an object that holds `a`. -/
def Installed (a : Addr) (e : Event) : Prop :=
  ∃ w c o, s.wrapper a = some w ∧ w.cells e = some c ∧ s.block c = some (.closure e o) ∧ s.Inner o a

/-- No callback was ever set on `id`, and no queued announcement is for it. -/
def Unused (id : Int) : Prop :=
  id ≤ (s.native.lastId : Int) ∧ s.native.callbacks id = [] ∧ ∀ x ∈ s.announcements, (x.node.dc : Int) ≠ id

/-- The user pointer of `id` is `a`. -/
def Pointed (id : Int) (a : Addr) : Prop :=
  id ≤ (s.native.lastId : Int) ∧ s.native.userPointerMap id = some (some a) ∧
    ∀ x ∈ s.announcements, (x.node.dc : Int) ≠ id

/-! ## The call on top of the stack -/

def CallerOk : Caller → Prop
  | .newPeerConnection o => ∃ ob, s.object o = some ob ∧ ob.inner = none
  | .createDatachannel _ => True
  | .announced x         => s.Has x.node.pc true x.raisedBy

/-- What a call that makes a wrapper may rely on. -/
def FrameOk : Frame → Prop
  | .creating caller id          => s.CallerOk caller ∧ s.Unused id
  | .allocated caller a          => s.CallerOk caller ∧ ∃ id, s.Has a caller.ofConnection id ∧ s.Unused id
  | .registering caller a todo   =>
      s.CallerOk caller ∧ (∀ e ∈ todo, e.ofConnection = caller.ofConnection) ∧
        ∃ id, s.Has a caller.ofConnection id ∧ s.Pointed id a
  | .constructing a _ _          => ∃ id, s.Has a false id
  | .installing o a _ site       =>
      s.Inner o a ∧ ∃ id, s.Has a site.ofConnection id ∧ (site = .connection → s.Pointed id a)
  | .registeringDatachannel o a  => s.Inner o a ∧ ∃ id, s.Has a true id ∧ s.Pointed id a
  | _                            => True

end State

/-- The call is still to assign the field of `a` for `e`. -/
def Frame.Awaits (a : Addr) (e : Event) : Frame → Prop
  | .allocated _ a'              => a' = a
  | .registering _ a' _          => a' = a
  | .constructing a' _ _         => a' = a
  | .installing _ a' todo site   => a' = a ∧ (e ∈ todo ∨ (site = .connection ∧ e = .dataChannel))
  | .registeringDatachannel _ a' => a' = a ∧ e = .dataChannel
  | _                            => False

/-- Who still has to assign a field is making a wrapper, and holds it. -/
theorem Frame.Awaits.held {a : Addr} {e : Event} {f : Frame} (h : f.Awaits a e) :
    f.builds = true ∧ a ∈ f.refs := by
  cases f with
  | allocated | registering | constructing =>
      obtain rfl := h
      exact ⟨rfl, List.mem_cons_self⟩
  | installing | registeringDatachannel =>
      obtain ⟨rfl, -⟩ := h
      exact ⟨rfl, List.mem_cons_of_mem _ List.mem_cons_self⟩
  | _ => exact absurd h id

theorem State.frameOk_of_not_builds {s : State} {f : Frame} (h : f.builds = false) : s.FrameOk f := by
  cases f with
  | announcing | onDataChannel | draining | handling => trivial
  | _ => exact absurd h (by simp [Frame.builds])

/-- A field for the event is assigned when the fields of the wrapper are. -/
theorem mem_registrations_channel {e : Event} (h : e.ofConnection = false) : e ∈ registrations false := by
  cases e <;> simp_all [Event.ofConnection, registrations]

theorem mem_registrations_connection {e : Event} (h : e.ofConnection = true) :
    e ∈ registrations true ∨ e = .dataChannel := by
  cases e <;> simp_all [Event.ofConnection, registrations]

theorem ofConnection_registrations (ofConnection : Bool) :
    ∀ e ∈ registrations ofConnection, e.ofConnection = ofConnection := by
  cases ofConnection <;> simp [registrations, Event.ofConnection]

/-! ## Blocks gain -/

/-- What is known of the blocks of `s` is known of those of `s'`. -/
structure Grows (s s' : State) : Prop where
  has       : ∀ a ofConnection id, s.Has a ofConnection id → s'.Has a ofConnection id
  inner     : ∀ o a, s.Inner o a → s'.Inner o a
  installed : ∀ a e, s.Installed a e → s'.Installed a e

/-- Every block is kept. -/
theorem Grows.of_kept {s s' : State} (h : ∀ a b, s.block a = some b → s'.block a = some b) : Grows s s' := by
  have hwrapper : ∀ a w, s.wrapper a = some w → s'.wrapper a = some w := fun a w hw =>
    State.wrapper_eq_some.mpr (h _ _ (State.wrapper_eq_some.mp hw))
  have hinner : ∀ o a, s.Inner o a → s'.Inner o a := by
    rintro o a ⟨ob, ho, ha⟩
    exact ⟨ob, State.object_eq_some.mpr (h _ _ (State.object_eq_some.mp ho)), ha⟩
  refine ⟨?_, hinner, ?_⟩
  · rintro a ofConnection id ⟨w, hw, hkind, hid⟩
    exact ⟨w, hwrapper _ _ hw, hkind, hid⟩
  · rintro a e ⟨w, c, o, hw, hcell, hc, ho⟩
    exact ⟨w, c, o, hwrapper _ _ hw, hcell, h _ _ hc, hinner _ _ ho⟩

theorem Grows.of_same {s s' : State} (h : s'.block = s.block) : Grows s s' :=
  .of_kept fun a b hb => by rwa [h]

/-- A block is added where there was none. -/
theorem kept_alloc {s s' : State} {b : Block} (hfresh : s.block s.next = none)
    (h : s'.block = (s.alloc b).block) : ∀ a b', s.block a = some b' → s'.block a = some b' := by
  intro a b' hb'
  have hne : a ≠ s.next := by
    rintro rfl
    rw [hfresh] at hb'
    exact absurd hb' (by simp)
  rw [h, State.alloc_block_ne hne, hb']

theorem Grows.of_alloc {s s' : State} {b : Block} (hfresh : s.block s.next = none)
    (h : s'.block = (s.alloc b).block) : Grows s s' :=
  .of_kept (kept_alloc hfresh h)

/-- A caller keeps what it relies on. -/
theorem State.callerOk_kept {s s' : State} {caller : Caller}
    (h : ∀ a b, s.block a = some b → s'.block a = some b) (hok : s.CallerOk caller) : s'.CallerOk caller := by
  cases caller with
  | newPeerConnection o =>
      obtain ⟨ob, ho, hnone⟩ := hok
      exact ⟨ob, State.object_eq_some.mpr (h _ _ (State.object_eq_some.mp ho)), hnone⟩
  | createDatachannel pc => trivial
  | announced x => exact (Grows.of_kept h).has _ _ _ hok

/-- An object is replaced by one that holds the same wrapper, or held none. -/
theorem Grows.of_setObject {s s' : State} {o : Addr} {ob ob' : Object} (ho : s.object o = some ob)
    (h : s'.block = (s.set o (.object ob')).block)
    (hinner : ∀ a, ob.inner = some a → ob'.inner = some a) : Grows s s' := by
  have hblock := State.object_eq_some.mp ho
  have hother : ∀ a b, s.block a = some b → (∀ ob, b ≠ .object ob) → s'.block a = some b := by
    intro a b hb hne
    have hao : a ≠ o := by
      rintro rfl
      exact hne ob (Option.some.inj (hb.symm.trans hblock))
    rw [h, State.set_block_ne hao, hb]
  have hwrapper : ∀ a w, s.wrapper a = some w → s'.wrapper a = some w := fun a w hw =>
    State.wrapper_eq_some.mpr (hother _ _ (State.wrapper_eq_some.mp hw) (by simp))
  have hin : ∀ o' a, s.Inner o' a → s'.Inner o' a := by
    rintro o' a ⟨ob₁, ho₁, ha⟩
    by_cases hoo : o' = o
    · subst hoo
      obtain rfl := Option.some.inj (ho₁.symm.trans ho)
      exact ⟨ob', State.object_eq_some.mpr (by rw [h, State.set_block_self]), hinner a ha⟩
    · refine ⟨ob₁, State.object_eq_some.mpr ?_, ha⟩
      rw [h, State.set_block_ne hoo]
      exact State.object_eq_some.mp ho₁
  refine ⟨?_, hin, ?_⟩
  · rintro a ofConnection id ⟨w, hw, hkind, hid⟩
    exact ⟨w, hwrapper _ _ hw, hkind, hid⟩
  · rintro a e ⟨w, c, o', hw, hcell, hc, ho'⟩
    exact ⟨w, c, o', hwrapper _ _ hw, hcell, hother _ _ hc (by simp), hin _ _ ho'⟩

/-- A closure is allocated for object `o` and stored in a field of the wrapper that `o` holds; afterwards that
    field is installed. -/
theorem Grows.of_install {s s' : State} {o a : Addr} {e : Event} {w : Wrapper}
    (hfresh : s.block s.next = none) (hw : s.wrapper a = some w) (ho : s.Inner o a)
    (h : s'.block = ((s.alloc (.closure e o)).set a (.wrapper (w.setCell e s.next))).block) :
    Grows s s' ∧ s'.Installed a e := by
  have hblock := State.wrapper_eq_some.mp hw
  have hnext : s.next ≠ a := by
    intro he
    rw [he, hblock] at hfresh
    exact absurd hfresh (by simp)
  have hself : s'.block a = some (.wrapper (w.setCell e s.next)) := by rw [h, State.set_block_self]
  have hclosure : s'.block s.next = some (.closure e o) := by
    rw [h, State.set_block_ne hnext, State.alloc_block_self]
  have hother : ∀ a' b, s.block a' = some b → a' ≠ a → s'.block a' = some b := by
    intro a' b hb hne
    have hne' : a' ≠ s.next := by
      rintro rfl
      rw [hfresh] at hb
      exact absurd hb (by simp)
    rw [h, State.set_block_ne hne, State.alloc_block_ne hne', hb]
  have hin : ∀ o' a', s.Inner o' a' → s'.Inner o' a' := by
    rintro o' a' ⟨ob, hob, ha⟩
    have hob' := State.object_eq_some.mp hob
    have hne : o' ≠ a := by
      rintro rfl
      rw [hblock] at hob'
      exact absurd hob' (by simp)
    exact ⟨ob, State.object_eq_some.mpr (hother _ _ hob' hne), ha⟩
  have hinstalled : s'.Installed a e :=
    ⟨_, s.next, o, State.wrapper_eq_some.mpr hself, Function.update_self .., hclosure, hin o a ho⟩
  refine ⟨⟨?_, hin, ?_⟩, hinstalled⟩
  · rintro a' ofConnection id ⟨w', hw', hkind, hid⟩
    by_cases haa : a' = a
    · subst haa
      obtain rfl := Option.some.inj (hw'.symm.trans hw)
      exact ⟨_, State.wrapper_eq_some.mpr hself, hkind, hid⟩
    · exact ⟨w', State.wrapper_eq_some.mpr (hother _ _ (State.wrapper_eq_some.mp hw') haa), hkind, hid⟩
  · rintro a' e' ⟨w', c, o', hw', hcell, hc, ho'⟩
    have hc' : s'.block c = some (.closure e' o') := by
      apply hother _ _ hc
      rintro rfl
      rw [hblock] at hc
      exact absurd hc (by simp)
    by_cases haa : a' = a
    · subst haa
      obtain rfl := Option.some.inj (hw'.symm.trans hw)
      by_cases hee : e' = e
      · exact hee ▸ hinstalled
      · exact ⟨_, c, o', State.wrapper_eq_some.mpr hself, (Function.update_of_ne hee ..).trans hcell, hc',
          hin _ _ ho'⟩
    · exact ⟨w', c, o', State.wrapper_eq_some.mpr (hother _ _ (State.wrapper_eq_some.mp hw') haa), hcell, hc',
        hin _ _ ho'⟩

/-! ## The invariant -/

/-- The event of a node is for the field its closure is read from, and its arguments are initialised and of the
    kinds that closure takes. -/
def Node.WellFormed (n : Node) : Prop :=
  n.result.closure.event = n.event ∧
    ∃ vs, n.result.callArgs = some vs ∧ vs.map Vdynamic.kind = ArgKind.params n.event

/-- The shape of the memory in a reachable state. -/
structure Shape (s : State) : Prop where
  live : s.nullCall = false
  fresh : ∀ a, s.next ≤ a → s.block a = none
  alive : ∀ a w, s.wrapper a = some w → w.rooted = true ∧ w.finalized = false
  standing : ∀ a w e, s.wrapper a = some w → e.ofConnection = w.ofConnection →
    s.Installed a e ∨ ∃ f, s.stack.head? = some f ∧ f.Awaits a e
  bounded : s.native.Bounded
  registered : ∀ i e, e ∈ s.native.callbacks i →
    ∃ a, s.native.userPointerMap i = some (some a) ∧ s.Has a e.ofConnection i
  announced : ∀ x ∈ s.announcements, s.Has x.node.pc true x.raisedBy ∧
    (x.node.dc : Int) ≤ (s.native.lastId : Int) ∧ s.native.callbacks x.node.dc = []
  distinct : (s.announcements.map fun x => x.node.dc).Nodup
  queued : ∀ n ∈ s.results, s.Has n.result.closure.owner n.event.ofConnection n.raisedBy ∧ n.WellFormed
  below : ∀ f ∈ s.stack.tail, f.builds = false
  top : ∀ f, s.stack.head? = some f → s.FrameOk f

theorem shape_init : Shape .init := by
  constructor <;> simp [State.init, State.wrapper, Tables.bounded_empty]
  simp [Tables.empty]

namespace Shape

variable {s : State}

theorem topOk (h : Shape s) {f : Frame} {rest : List Frame} (hs : s.stack = f :: rest) : s.FrameOk f :=
  h.top f (by rw [hs, List.head?_cons])

theorem rest_not_builds (h : Shape s) {f g : Frame} {rest : List Frame} (hs : s.stack = f :: rest)
    (hg : g ∈ rest) : g.builds = false :=
  h.below g (by rwa [hs, List.tail_cons])

/-- While no wrapper is being made, every wrapper is complete. -/
theorem calm (h : Shape s) (hs : ∀ f, s.stack.head? = some f → f.builds = false) {a : Addr} {w : Wrapper}
    {e : Event} (hw : s.wrapper a = some w) (he : e.ofConnection = w.ofConnection) : s.Installed a e := by
  rcases h.standing a w e hw he with hinst | ⟨f, hf, hawaits⟩
  · exact hinst
  · have hbuilds := hawaits.held.1
    rw [hs f hf] at hbuilds
    exact absurd hbuilds (by simp)

theorem not_builds_of_runs (hrun : applicationRuns s.stack = true) :
    ∀ f, s.stack.head? = some f → f.builds = false := by
  intro f hf
  cases hs : s.stack with
  | nil => rw [hs] at hf; exact absurd hf (by simp)
  | cons g rest =>
      rw [hs, List.head?_cons, Option.some.injEq] at hf
      subst hf
      rw [hs] at hrun
      cases g <;> first | rfl | exact absurd hrun (by simp [applicationRuns])

end Shape
end HxDatachannel.Heap
