import HxDatachannel.Heap.Dispatch

/-!
# `Heap.Collect` — what the collector may take

The nodes of the two queues are plain memory and keep no wrapper alive, and a finalizer does not purge them; yet
none of them ever outlives its wrapper (`queued_not_finalized`). The reason is also a leak: a complete wrapper is
held by the closures in its own registered fields, and no call ever resets these, so that a wrapper is never
collected, not even when the application has dropped it (`dropped_never_collected`).
-/

namespace HxDatachannel.Heap

open Native Lts

namespace State

variable (s : State)

/-- The collector can take the wrapper at `a`. -/
def Collectable (a : Addr) : Prop := s.Admitted (.collect a) ∧ (s.step (.collect a)).isSome

/-- A queued event or announcement is for the wrapper at `a`. -/
def Queued (a : Addr) : Prop :=
  (∃ n ∈ s.results, n.result.closure.owner = a) ∨ ∃ x ∈ s.announcements, x.node.pc = a

/-- The wrapper at `a` is not finalized, its native object is closed, no event is queued for it, and only paths
    that start in its own fields reach it. -/
def Dropped (a : Addr) : Prop :=
  (∃ w, s.wrapper a = some w ∧ w.finalized = false ∧ s.closed w.id = true) ∧ ¬s.Queued a ∧
    ¬s.ReachableOtherwise a

end State

/-- **No queued event outlives its owner.** In every reachable state the wrappers that queued events and
    announcements refer to are not finalized. -/
theorem queued_not_finalized {s : State} (h : Path State.step State.Admitted .init s) {a : Addr}
    (hqueued : s.Queued a) : ∃ w, s.wrapper a = some w ∧ w.finalized = false := by
  have hshape := shape_path h
  have hlive : ∀ {ofConnection id}, s.Has a ofConnection id → ∃ w, s.wrapper a = some w ∧ w.finalized = false := by
    rintro ofConnection id ⟨w, hw, -, -⟩
    exact ⟨w, hw, (hshape.alive a w hw).2⟩
  rcases hqueued with ⟨n, hn, rfl⟩ | ⟨x, hx, rfl⟩
  · exact hlive (hshape.queued n hn).1
  · exact hlive (hshape.announced x hx).1

/-- An event and an announcement of a connection that the application never held are queued. -/
theorem queued_not_finalized_run : ∃ s, exec State.step (fun _ act => act.free = true) .init
      (.newPeerConnection none :: advances 15 ++ [.raise 1 (.stateChange 0 2), .incoming 1]) = some s ∧
    s.held = [] ∧ s.results.length = 1 ∧ s.announcements.length = 1 ∧
    ∃ w, s.wrapper 1 = some w ∧ w.finalized = false := by
  obtain ⟨s, hrun, hheld, hresults, n, hn, howner, hann⟩ : ∃ s,
      exec State.step (fun _ act => act.free = true) .init
        (.newPeerConnection none :: advances 15 ++ [.raise 1 (.stateChange 0 2), .incoming 1]) = some s ∧
      s.held = [] ∧ s.results.length = 1 ∧ ∃ n, s.results = [n] ∧ n.result.closure.owner = 1 ∧
      s.announcements.length = 1 := ⟨_, rfl, rfl, rfl, _, rfl, rfl, rfl⟩
  have hqueued : s.Queued 1 := .inl ⟨n, by rw [hn]; exact List.mem_singleton_self _, howner⟩
  exact ⟨s, hrun, hheld, hresults, hann, queued_not_finalized (path_of_exec hrun) hqueued⟩

/-- Wrappers stay. -/
theorem has_path {s s' : State} (h : Shape s) (hpath : Path State.step State.Admitted s s') {a : Addr}
    {ofConnection : Bool} {id : Int} (hhas : s.Has a ofConnection id) : s'.Has a ofConnection id := by
  refine (hpath.invariant (I := fun s => Shape s ∧ s.Has a ofConnection id) ?_ ⟨h, hhas⟩).2
  rintro u act v ⟨hu, hhas⟩ hadm hstep
  refine ⟨hu.step hadm hstep, ?_⟩
  rcases State.effect_of_step hstep with ⟨b, w, rfl, hw, -⟩ | heff
  · exact absurd (hu.reachable_wrapper hw) hadm
  · exact (hu.grows_step heff).has _ _ _ hhas

/-- **Dropped wrappers are never released.** A wrapper that is dropped in a reachable state stays, then and at
    any later time: its finalizer has not run, its fields are registered as roots, and it cannot be collected. -/
theorem dropped_never_collected {s : State} (h : Path State.step State.Admitted .init s) {a : Addr}
    (hdropped : s.Dropped a) {s' : State} (h' : Path State.step State.Admitted s s') :
    (∃ w, s'.wrapper a = some w ∧ w.rooted = true ∧ w.finalized = false) ∧ ¬s'.Collectable a := by
  have hshape := shape_path (h.trans h')
  obtain ⟨⟨w, hw, -⟩, -⟩ := hdropped
  obtain ⟨w', hw', -⟩ := has_path (shape_path h) h' ⟨w, hw, rfl, rfl⟩
  refine ⟨⟨w', hw', hshape.alive a w' hw'⟩, ?_⟩
  rintro ⟨hadm, -⟩
  exact hadm (hshape.reachable_wrapper hw')

/-- A run: a connection is made and not held, it is closed, and the event of that is polled. -/
theorem dropped_run : ∃ s, exec State.step (fun _ act => act.free = true) .init
      (.newPeerConnection none :: advances 15 ++ [.close 1, .raise 1 (.stateChange 0 5), .processEvents] ++
        advances 2 ++ [.ret] ++ advances 1) = some s ∧ s.next = 7 ∧ s.held = [] ∧
    s.stack = [] ∧ s.results = [] ∧ s.announcements = [] ∧ (∀ a < 7, a ≠ 1 → s.wrapper a = none) ∧
    ∃ w, s.wrapper 1 = some w ∧ w.finalized = false ∧ s.closed w.id = true :=
  ⟨_, rfl, rfl, rfl, rfl, rfl, rfl, by decide, _, rfl, rfl, rfl⟩

/-- With nothing held, nothing on the stack and no other wrapper, the wrapper is dropped. -/
theorem dropped_alone {s : State} (h : Shape s) {a : Addr} (hheld : s.held = []) (hstack : s.stack = [])
    (hresults : s.results = []) (hann : s.announcements = []) (hother : ∀ a' < s.next, a' ≠ a → s.wrapper a' = none)
    (hw : ∃ w, s.wrapper a = some w ∧ w.finalized = false ∧ s.closed w.id = true) : s.Dropped a := by
  refine ⟨hw, ?_, ?_⟩
  · rintro (⟨n, hn, -⟩ | ⟨x, hx, -⟩)
    · rw [hresults] at hn
      exact absurd hn (by simp)
    · rw [hann] at hx
      exact absurd hx (by simp)
  · intro hreach
    -- nothing at all is reachable
    refine hreach.colour (S := fun _ => False) ?_ fun _ _ hS _ => hS
    rintro b (hb | ⟨hf, -⟩ | ⟨hne, hw', -, -⟩)
    · rw [hheld] at hb
      exact absurd hb (by simp)
    · rw [hstack] at hf
      exact absurd hf (by simp)
    · rename_i a' w' e
      by_cases hlt : a' < s.next
      · rw [hother a' hlt hne] at hw'
        exact absurd hw' (by simp)
      · rw [State.wrapper_eq_some, h.fresh a' (Nat.le_of_not_lt hlt)] at hw'
        exact absurd hw' (by simp)

/-- That connection is dropped, and not released. -/
theorem dropped_never_collected_run : ∃ s, Path State.step State.Admitted .init s ∧ s.Dropped 1 ∧
    ¬s.Collectable 1 := by
  obtain ⟨s, hrun, hnext, hheld, hstack, hresults, hann, hother, hw⟩ := dropped_run
  have hpath := path_of_exec hrun
  have hdropped : s.Dropped 1 :=
    dropped_alone (shape_path hpath) hheld hstack hresults hann (by rwa [hnext]) hw
  exact ⟨s, hpath, hdropped, (dropped_never_collected hpath hdropped (Lts.Path.refl s)).2⟩

/-- **A wrapper that is not released.** The application makes a connection and keeps no reference, the native
    connection is closed, and all events are polled: the collector cannot take the wrapper, because its own
    closures hold it. -/
theorem leaked : ∃ s w, Path State.step State.Admitted .init s ∧ s.wrapper 1 = some w ∧
    s.closed w.id = true ∧ s.held = [] ∧ s.stack = [] ∧ s.Dropped 1 ∧ ¬s.Collectable 1 := by
  obtain ⟨s, hrun, hnext, hheld, hstack, hresults, hann, hother, w, hw, hfinal, hclosed⟩ := dropped_run
  have hpath := path_of_exec hrun
  have hshape := shape_path hpath
  have hdropped : s.Dropped 1 :=
    dropped_alone hshape hheld hstack hresults hann (by rwa [hnext]) ⟨w, hw, hfinal, hclosed⟩
  exact ⟨s, w, hpath, hw, hclosed, hheld, hstack, hdropped, fun hcollect =>
    hcollect.1 (hshape.reachable_wrapper hw)⟩

end HxDatachannel.Heap
