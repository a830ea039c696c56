import HxDatachannel.Heap.Steps

/-!
# `Heap.Dispatch` — what is called, and with what

Native callbacks get a user pointer and trust that it is the wrapper of their object; `process_events` calls the
closure that a field holds, which another call assigned, with arguments that a third one left in a node.
`dispatch_well_formed` says that these always fit.
-/

namespace HxDatachannel.Heap

open Native Lts

/-! ## Runs that can be computed -/

/-- The steps that nothing is asked of. -/
def Act.free : Act → Bool
  | .hold _ | .link .. | .createDatachannel .. | .collect _ => false
  | _                                                        => true

theorem admitted_of_free {s : State} {act : Act} (h : act.free = true) : s.Admitted act := by
  cases act with
  | hold | link | createDatachannel | collect => exact absurd h (by simp [Act.free])
  | _ => trivial

theorem path_of_exec {s s' : State} {acts : List Act}
    (h : exec State.step (fun _ act => act.free = true) s acts = some s') :
    Path State.step State.Admitted s s' :=
  (Path.of_exec h).weaken fun _ _ => admitted_of_free

/-- `n` steps of the binding's code. -/
def advances (n : Nat) : List Act := List.replicate n (.advance [] [])

/-! ## Every call fits -/

namespace State

/-- At `a` there is the live wrapper of `id`, of the kind that has a field for `e`. -/
def Owner (s : State) (a : Addr) (e : Event) (id : Int) : Prop :=
  ∃ w, s.wrapper a = some w ∧ w.ofConnection = e.ofConnection ∧ w.id = id ∧ w.finalized = false

/-- The closure that is read is not NULL; it is the one that is installed for the event in the wrapper of the
    object that raised it; and the arguments are initialised, as many as that closure declares and of the same
    kinds. -/
def Proper (s : State) (call : DynCall) : Prop :=
  ∃ a c o, s.Owner a call.event call.raisedBy ∧ s.cell a call.event = some c ∧ call.closure = some c ∧
    s.block c = some (.closure call.event o) ∧ s.Inner o a ∧
    ∃ args, call.args = some args ∧ args.map Arg.kind = ArgKind.params call.event

end State

theorem Shape.owner {s : State} (h : Shape s) {a : Addr} {e : Event} {id : Int} (hhas : s.Has a e.ofConnection id) :
    s.Owner a e id := by
  obtain ⟨w, hw, hkind, hid⟩ := hhas
  exact ⟨w, hw, hkind, hid, (h.alive a w hw).2⟩

theorem Shape.proper_announced {s : State} (h : Shape s) {x : Announcement} {a : Addr} {rest : List Frame}
    (label buffer : Bytes) (hs : s.stack = .registering (.announced x) a [] :: rest) :
    s.Proper { closure := s.cell x.node.pc .dataChannel
               args := some [.wrapper a, .value (.bytes (announcedName label buffer))]
               event := .dataChannel, raisedBy := x.raisedBy } := by
  obtain ⟨c, o, hcell, hclosure, hinner⟩ := Shape.cell_of_installed (h.announced_installed hs)
  exact ⟨x.node.pc, c, o, h.owner (h.topOk hs).1, hcell, hcell, hclosure, hinner, _, rfl, rfl⟩

theorem Shape.proper_draining {s : State} (h : Shape s) {n : Node} {ns : List Node} {rest : List Frame}
    (hs : s.stack = .draining :: rest) (hn : s.results = n :: ns) :
    s.Proper { closure := s.cell n.result.closure.owner n.result.closure.event
               args := n.result.callArgs.map fun vs => vs.map .value
               event := n.event, raisedBy := n.raisedBy } := by
  have hmem : n ∈ s.results := by rw [hn]; exact List.mem_cons_self
  obtain ⟨hhas, hevent, vs, hargs, hkinds⟩ := h.queued n hmem
  obtain ⟨c, o, hcell, hclosure, hinner⟩ := Shape.cell_of_installed (h.queued_installed hs hmem)
  refine ⟨n.result.closure.owner, c, o, h.owner hhas, hcell, ?_, hclosure, hinner, vs.map .value, ?_, ?_⟩
  · show s.cell n.result.closure.owner n.result.closure.event = some c
    rw [hevent, hcell]
  · show n.result.callArgs.map (fun vs => vs.map Arg.value) = some (vs.map Arg.value)
    rw [hargs, Option.map_some]
  · rw [List.map_map, ← hkinds]
    rfl

end HxDatachannel.Heap
