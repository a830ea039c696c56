import HxDatachannel.Heap.Shape

/-!
# `Heap.Steps` — every step keeps the shape of the memory

One lemma for each field of `Shape`, over the cases of `Effect`. The finalizer never runs, since every wrapper is
reachable (`reachable_wrapper`): a complete one from its own fields, the others from the stack.
-/

namespace HxDatachannel.Heap

open Native Lts

variable {s s' : State}

namespace Shape

/-! ## Blocks -/

theorem grows_step (h : Shape s) (heff : Effect s s') : Grows s s' := by
  have hnext : s.block s.next = none := h.fresh s.next (Nat.le_refl _)
  cases heff with
  | link hrun ho => exact .of_setObject ho rfl fun _ ha => ha
  | allocate => exact .of_alloc hnext rfl
  | newPeerConnection => exact .of_alloc hnext rfl
  | make => exact .of_alloc hnext rfl
  | @assignInner o a ob rest hs ho =>
      -- the object under construction holds nothing yet
      obtain ⟨⟨ob', ho', hnone⟩, -⟩ := h.topOk hs
      obtain rfl := Option.some.inj (ho.symm.trans ho')
      refine .of_setObject ho rfl ?_
      intro a ha
      rw [hnone] at ha
      exact absurd ha (by simp)
  | construct => exact .of_alloc hnext rfl
  | install hs hw => exact And.left (Grows.of_install hnext hw (h.topOk hs).1 rfl)
  | push hs ho => exact .of_setObject ho rfl fun _ ha => ha
  | _ => exact .of_same rfl

theorem fresh_update {b : Block} {a : Addr} (h : ∀ a, s.next ≤ a → s.block a = none) (ha : s.block a ≠ none)
    (hblock : s'.block = (s.set a b).block) (hnext : s'.next = s.next) :
    ∀ a, s'.next ≤ a → s'.block a = none := by
  intro a' hle
  rw [hnext] at hle
  have hne : a' ≠ a := by
    rintro rfl
    exact ha (h _ hle)
  rw [hblock, State.set_block_ne hne, h a' hle]

theorem fresh_alloc {b : Block} (h : ∀ a, s.next ≤ a → s.block a = none)
    (hblock : s'.block = (s.alloc b).block) (hnext : s'.next = s.next + 1) :
    ∀ a, s'.next ≤ a → s'.block a = none := by
  intro a hle
  rw [hnext] at hle
  rw [hblock, State.alloc_block_ne (Nat.ne_of_gt hle), h a (Nat.le_of_succ_le hle)]

theorem fresh_step (h : Shape s) (heff : Effect s s') : ∀ a, s'.next ≤ a → s'.block a = none := by
  have hobject : ∀ {o ob}, s.object o = some ob → s.block o ≠ none := by
    intro o ob ho
    rw [State.object_eq_some.mp ho]
    simp
  cases heff with
  | link hrun ho => exact fresh_update h.fresh (hobject ho) rfl rfl
  | allocate => exact fresh_alloc h.fresh rfl rfl
  | newPeerConnection => exact fresh_alloc h.fresh rfl rfl
  | make => exact fresh_alloc h.fresh rfl rfl
  | assignInner hs ho => exact fresh_update h.fresh (hobject ho) rfl rfl
  | construct => exact fresh_alloc h.fresh rfl rfl
  | @install o a e todo site w rest hs hw =>
      refine fresh_update (s := s.alloc (.closure e o)) (fresh_alloc h.fresh rfl rfl) ?_ rfl rfl
      have hne : a ≠ s.next := by
        rintro rfl
        have hnone := h.fresh s.next (Nat.le_refl _)
        rw [State.wrapper_eq_some.mp hw] at hnone
        exact absurd hnone (by simp)
      rw [State.alloc_block_ne hne, State.wrapper_eq_some.mp hw]
      simp
  | push hs ho => exact fresh_update h.fresh (hobject ho) rfl rfl
  | _ => exact h.fresh

/-- The wrappers after a step: those of before, and one that is made now. -/
theorem wrapper_step (heff : Effect s s') {a : Addr} {w' : Wrapper} (hw' : s'.wrapper a = some w') :
    (∃ w, s.wrapper a = some w ∧ w'.ofConnection = w.ofConnection ∧ w'.rooted = w.rooted ∧
      w'.finalized = w.finalized) ∨
    (∃ caller id rest, s.stack = .creating caller id :: rest ∧ a = s.next ∧
      w' = .alloc caller.ofConnection id ∧ s'.stack = .allocated caller s.next :: rest) := by
  have hsame : s'.block a = s.block a → ∃ w, s.wrapper a = some w ∧ w'.ofConnection = w.ofConnection ∧
      w'.rooted = w.rooted ∧ w'.finalized = w.finalized := by
    intro hblock
    rw [State.wrapper_eq_some, hblock] at hw'
    exact ⟨w', State.wrapper_eq_some.mpr hw', rfl, rfl, rfl⟩
  have halloc : ∀ b, (∀ w, b ≠ .wrapper w) → s'.block = (s.alloc b).block → s'.block a = s.block a := by
    intro b hb hblock
    rw [State.wrapper_eq_some, hblock] at hw'
    by_cases ha : a = s.next
    · subst ha
      rw [State.alloc_block_self] at hw'
      exact absurd (Option.some.inj hw') (hb w')
    · rw [hblock, State.alloc_block_ne ha]
  have hset : ∀ o ob, s'.block = (s.set o (.object ob)).block → s'.block a = s.block a := by
    intro o ob hblock
    rw [State.wrapper_eq_some, hblock] at hw'
    by_cases ha : a = o
    · subst ha
      rw [State.set_block_self] at hw'
      exact absurd hw' (by simp)
    · rw [hblock, State.set_block_ne ha]
  cases heff with
  | link => exact .inl (hsame (hset _ _ rfl))
  | allocate => exact .inl (hsame (halloc _ (by simp) rfl))
  | newPeerConnection => exact .inl (hsame (halloc _ (by simp) rfl))
  | @make caller id rest hs =>
      by_cases ha : a = s.next
      · subst ha
        rw [State.wrapper_eq_some] at hw'
        have hself : (s.alloc (.wrapper (.alloc caller.ofConnection id))).block s.next = _ :=
          State.alloc_block_self _
        obtain rfl := Block.wrapper.inj (Option.some.inj (hw'.symm.trans hself))
        exact .inr ⟨caller, id, rest, hs, rfl, rfl, rfl⟩
      · exact .inl (hsame (State.alloc_block_ne ha _))
  | assignInner => exact .inl (hsame (hset _ _ rfl))
  | construct => exact .inl (hsame (halloc _ (by simp) rfl))
  | @install o a' e todo site w rest hs hw =>
      by_cases ha : a = a'
      · subst ha
        rw [State.wrapper_eq_some] at hw'
        have hself : ((s.alloc (.closure e o)).set a (.wrapper (w.setCell e s.next))).block a = _ :=
          State.set_block_self ..
        obtain rfl := Block.wrapper.inj (Option.some.inj (hw'.symm.trans hself))
        exact .inl ⟨w, hw, rfl, rfl, rfl⟩
      · rw [State.wrapper_eq_some] at hw'
        have hother : ((s.alloc (.closure e o)).set a' (.wrapper (w.setCell e s.next))).block a = _ :=
          State.set_block_ne ha _
        have hw₁ := hw'.symm.trans hother
        by_cases hnext : a = s.next
        · subst hnext
          rw [State.alloc_block_self] at hw₁
          exact absurd hw₁ (by simp)
        · rw [State.alloc_block_ne hnext] at hw₁
          exact .inl ⟨w', State.wrapper_eq_some.mpr hw₁.symm, rfl, rfl, rfl⟩
  | push => exact .inl (hsame (hset _ _ rfl))
  | _ => exact .inl (hsame rfl)

theorem alive_step (h : Shape s) (heff : Effect s s') {a : Addr} {w' : Wrapper}
    (hw' : s'.wrapper a = some w') : w'.rooted = true ∧ w'.finalized = false := by
  rcases wrapper_step heff hw' with ⟨w, hw, -, hrooted, hfinal⟩ | ⟨caller, id, rest, -, -, rfl, -⟩
  · rw [hrooted, hfinal]
    exact h.alive a w hw
  · exact ⟨rfl, rfl⟩

/-! ## The closures that are called -/

/-- What a field that is installed holds. -/
theorem cell_of_installed {a : Addr} {e : Event} (h : s.Installed a e) :
    ∃ c o, s.cell a e = some c ∧ s.block c = some (.closure e o) ∧ s.Inner o a := by
  obtain ⟨w, c, o, hw, hcell, hc, ho⟩ := h
  refine ⟨c, o, ?_, hc, ho⟩
  rw [State.cell, hw]
  exact hcell

/-- When a channel is announced, the wrapper of its connection is complete. -/
theorem announced_installed (h : Shape s) {x : Announcement} {a : Addr} {rest : List Frame}
    (hs : s.stack = .registering (.announced x) a [] :: rest) : s.Installed x.node.pc .dataChannel := by
  obtain ⟨⟨w, hw, hkind, -⟩, -, id, ⟨w', hw', hkind', -⟩, -⟩ := h.topOk hs
  rcases h.standing _ w .dataChannel hw hkind.symm with hinst | ⟨f, hf, hawaits⟩
  · exact hinst
  · -- the only wrapper being made is that of the channel
    rw [hs, List.head?_cons, Option.some.injEq] at hf
    subst hf
    obtain rfl : a = x.node.pc := hawaits
    obtain rfl := Option.some.inj (hw.symm.trans hw')
    rw [hkind] at hkind'
    exact absurd hkind' (by simp [Caller.ofConnection])

/-- When events are polled, the field of each of them is assigned. -/
theorem queued_installed (h : Shape s) {rest : List Frame} (hs : s.stack = .draining :: rest) {n : Node}
    (hn : n ∈ s.results) : s.Installed n.result.closure.owner n.event := by
  obtain ⟨⟨w, hw, hkind, -⟩, -⟩ := h.queued n hn
  refine h.calm ?_ hw hkind.symm
  intro f hf
  rw [hs, List.head?_cons, Option.some.injEq] at hf
  subst hf
  rfl

/-- No closure that is called is NULL. -/
theorem live_step (h : Shape s) (heff : Effect s s') : s'.nullCall = false := by
  cases heff with
  | announcedNull hs hcell =>
      obtain ⟨c, o, hcell', -⟩ := cell_of_installed (h.announced_installed hs)
      exact absurd (hcell.symm.trans hcell') (by simp)
  | @nullCall n ns rest hs hn hcell =>
      have hmem : n ∈ s.results := by rw [hn]; exact List.mem_cons_self
      obtain ⟨c, o, hcell', -⟩ := cell_of_installed (h.queued_installed hs hmem)
      rw [(h.queued n hmem).2.1] at hcell
      exact absurd (hcell.symm.trans hcell') (by simp)
  | _ => exact h.live

/-- What is called for an announced channel is a closure. -/
theorem announced_closure (h : Shape s) {x : Announcement} {a c : Addr} {rest : List Frame}
    (hs : s.stack = .registering (.announced x) a [] :: rest)
    (hcell : s.cell x.node.pc .dataChannel = some c) : ∃ owner, s.block c = some (.closure .dataChannel owner) := by
  obtain ⟨c', o, hcell', hclosure, -⟩ := cell_of_installed (h.announced_installed hs)
  obtain rfl := Option.some.inj (hcell.symm.trans hcell')
  exact ⟨o, hclosure⟩

/-! ## Wrappers -/

/-- With `f` on top, a field is assigned, or `f` is still to assign it. -/
theorem standing_top {f : Frame} {rest : List Frame} (hs : s.stack = f :: rest) {a : Addr} {e : Event}
    (hstanding : s.Installed a e ∨ ∃ f, s.stack.head? = some f ∧ f.Awaits a e) :
    s.Installed a e ∨ f.Awaits a e := by
  apply hstanding.imp_right
  rintro ⟨g, hg, hawaits⟩
  rw [hs, List.head?_cons, Option.some.injEq] at hg
  exact hg ▸ hawaits

/-- The fields of a wrapper of before the step. -/
theorem standing_old (h : Shape s) (heff : Effect s s') {a : Addr} {w : Wrapper} {e : Event}
    (hw : s.wrapper a = some w) (he : e.ofConnection = w.ofConnection) :
    s'.Installed a e ∨ ∃ f, s'.stack.head? = some f ∧ f.Awaits a e := by
  have hgrows := h.grows_step heff
  have hold := h.standing a w e hw he
  -- the call on top moves on from `f` to `f'`
  have hmove : ∀ {f f' rest rest'}, s.stack = f :: rest → s'.stack = f' :: rest' →
      (f.Awaits a e → s'.Installed a e ∨ f'.Awaits a e) →
      s'.Installed a e ∨ ∃ f, s'.stack.head? = some f ∧ f.Awaits a e := by
    intro f f' rest rest' hs hs' hff
    rcases standing_top hs hold with hinst | hawaits
    · exact .inl (hgrows.installed _ _ hinst)
    · exact (hff hawaits).imp_right fun hawaits' => ⟨f', by rw [hs', List.head?_cons], hawaits'⟩
  have hcalm : (∀ f, s.stack.head? = some f → f.builds = false) →
      s'.Installed a e ∨ ∃ f, s'.stack.head? = some f ∧ f.Awaits a e := fun hs =>
    .inl (hgrows.installed _ _ (h.calm hs hw he))
  have hquiet : ∀ {f rest}, s.stack = f :: rest → f.builds = false →
      s'.Installed a e ∨ ∃ f, s'.stack.head? = some f ∧ f.Awaits a e := by
    intro f rest hs hf
    apply hcalm
    intro g hg
    rw [hs, List.head?_cons, Option.some.injEq] at hg
    exact hg ▸ hf
  cases heff with
  | hold hrun | link hrun | allocate hrun | newPeerConnection hrun | createDatachannel hrun
  | processEvents hrun => exact hcalm (not_builds_of_runs hrun)
  | make hs => exact hmove hs rfl fun hawaits => absurd hawaits id
  | point hs => exact hmove hs rfl fun hawaits => .inr hawaits
  | register hs => exact hmove hs rfl fun hawaits => .inr hawaits
  | assignInner hs ho =>
      refine hmove hs rfl fun hawaits => .inr ⟨hawaits, ?_⟩
      obtain ⟨-, -, id, ⟨w', hw', hkind, -⟩, -⟩ := h.topOk hs
      obtain rfl : _ = a := hawaits
      obtain rfl := Option.some.inj (hw.symm.trans hw')
      exact (mem_registrations_connection (he.trans hkind)).imp_right fun hdc => ⟨rfl, hdc⟩
  | created hs => exact hmove hs rfl fun hawaits => .inr hawaits
  | announced hs => exact hmove hs rfl fun hawaits => .inr hawaits
  | announcedNone hs hcell hc =>
      obtain ⟨owner, hclosure⟩ := h.announced_closure hs hcell
      exact absurd hclosure (hc _ _)
  | announcedNull hs => exact hmove hs hs fun hawaits => .inr hawaits
  | construct hs =>
      refine hmove hs rfl fun hawaits => .inr ⟨hawaits, .inl ?_⟩
      obtain ⟨id, w', hw', hkind, -⟩ := h.topOk hs
      obtain rfl : _ = a := hawaits
      obtain rfl := Option.some.inj (hw.symm.trans hw')
      exact mem_registrations_channel (he.trans hkind)
  | install hs hw₁ =>
      apply hmove hs rfl
      intro hawaits
      obtain ⟨rfl, hmem⟩ := hawaits
      rcases hmem with hmem | hdc
      · rcases List.mem_cons.mp hmem with rfl | hmem
        · exact .inl (And.right (Grows.of_install (h.fresh _ (Nat.le_refl _)) hw₁ (h.topOk hs).1 rfl))
        · exact .inr ⟨rfl, .inl hmem⟩
      · exact .inr ⟨rfl, .inr hdc⟩
  | installedConnection hs =>
      refine hmove hs rfl fun hawaits => .inr ⟨hawaits.1, ?_⟩
      rcases hawaits.2 with hmem | hdc
      · exact absurd hmem (by simp)
      · exact hdc.2
  | installedAll hs | installedChannel hs =>
      rcases standing_top hs hold with hinst | hawaits
      · exact .inl (hgrows.installed _ _ hinst)
      · exact absurd hawaits.2 (by simp)
  | registerDatachannel hs =>
      refine hmove hs rfl fun hawaits => .inr ⟨hawaits.1, .inl ?_⟩
      rw [hawaits.2]
      exact List.mem_singleton_self _
  | push hs =>
      rcases standing_top hs hold with hinst | hawaits
      · exact .inl (hgrows.installed _ _ hinst)
      · exact absurd hawaits id
  | popAnnouncement hs | noAnnouncement hs | handle hs | nullCall hs | drained hs | retOnDataChannel hs
  | retHandling hs | throwOnDataChannel hs | throwHandling hs => exact hquiet hs rfl
  | raise | ignored | incoming | close =>
      exact hold.imp_left (hgrows.installed _ _)

theorem standing_step (h : Shape s) (heff : Effect s s') {a : Addr} {w' : Wrapper} {e : Event}
    (hw' : s'.wrapper a = some w') (he : e.ofConnection = w'.ofConnection) :
    s'.Installed a e ∨ ∃ f, s'.stack.head? = some f ∧ f.Awaits a e := by
  rcases wrapper_step heff hw' with ⟨w, hw, hkind, -⟩ | ⟨caller, id, rest, -, rfl, -, hs'⟩
  · exact h.standing_old heff hw (he.trans hkind)
  · exact .inr ⟨.allocated caller s.next, by rw [hs', List.head?_cons], rfl⟩

/-! ## The stack -/

/-- Below the top nothing is being made. -/
theorem below_step (h : Shape s) (heff : Effect s s') : ∀ f ∈ s'.stack.tail, f.builds = false := by
  have hpush : applicationRuns s.stack = true → ∀ f ∈ s.stack, f.builds = false := by
    intro hrun f hf
    cases hs : s.stack with
    | nil => rw [hs] at hf; exact absurd hf (by simp)
    | cons g rest =>
        rw [hs] at hf
        rcases List.mem_cons.mp hf with rfl | hf
        · exact not_builds_of_runs hrun f (by rw [hs, List.head?_cons])
        · exact h.rest_not_builds hs hf
  cases heff with
  | newPeerConnection hrun => exact hpush hrun
  | createDatachannel hrun => exact hpush hrun
  | processEvents hrun => exact hpush hrun
  | hold | link | allocate | announcedNull | nullCall | raise | ignored | incoming | close => exact h.below
  | make hs | point hs | register hs | assignInner hs | created hs | announced hs | announcedNone hs
  | construct hs | install hs | installedConnection hs | installedChannel hs | registerDatachannel hs
  | popAnnouncement hs | noAnnouncement hs | handle hs | retOnDataChannel hs | retHandling hs =>
      exact fun f hf => h.rest_not_builds hs hf
  | installedAll hs | drained hs | throwOnDataChannel hs | throwHandling hs =>
      exact fun f hf => h.rest_not_builds hs (List.mem_of_mem_tail hf)
  | @push pc o incoming ob rest hs =>
      intro f hf
      apply h.rest_not_builds hs
      cases incoming with
      | true => exact hf
      | false => exact List.mem_of_mem_tail hf

/-! ## The tables -/

theorem bounded_step (h : Shape s) (heff : Effect s s') : s'.native.Bounded := by
  cases heff with
  | newPeerConnection => exact (Tables.rtcCreatePeerConnection_spec h.bounded _).bounded
  | createDatachannel => exact (Tables.rtcCreateDataChannelEx_spec h.bounded _ _).bounded
  | point => exact h.bounded
  | register => exact (Tables.rtcSetCallback_spec h.bounded _ _).1
  | registerDatachannel => exact (Tables.rtcSetCallback_spec h.bounded _ _).1
  | incoming => exact (Tables.incomingDataChannel_spec h.bounded _).2.1
  | _ => exact h.bounded

/-- **A callback is entered with its own wrapper as user pointer.** -/
theorem registered_entered (h : Shape s) {i : Int} {e : Event} {ptr : Option Addr}
    (hent : s.native.entered i e = some ptr) : ∃ a, ptr = some a ∧ s.Has a e.ofConnection i := by
  unfold Tables.entered at hent
  split at hent
  · rename_i hmem
    obtain ⟨a, hptr, hhas⟩ := h.registered i e hmem
    exact ⟨a, Option.some.inj (hent.symm.trans hptr), hhas⟩
  · exact absurd hent (by simp)

theorem le_lastId (h : Shape s) {i : Int} {e : Event} (he : e ∈ s.native.callbacks i) :
    i ≤ (s.native.lastId : Int) :=
  (h.bounded i (.inr (.inr (List.ne_nil_of_mem he)))).2

/-- Callbacks that were set stay with the wrapper when only new ids come. -/
theorem registered_extends (h : Shape s) (hgrows : Grows s s') (hext : s.native.Extends s'.native) :
    ∀ i e, e ∈ s'.native.callbacks i →
      ∃ a, s'.native.userPointerMap i = some (some a) ∧ s'.Has a e.ofConnection i := by
  intro i e he
  rw [hext.callbacks] at he
  obtain ⟨a, hptr, hhas⟩ := h.registered i e he
  exact ⟨a, (hext.pointers i (h.le_lastId he)).trans hptr, hgrows.has _ _ _ hhas⟩

/-- A callback is set on an id with its wrapper as user pointer. -/
theorem registered_set (h : Shape s) (hgrows : Grows s s') {a : Addr} {id : Int} {e : Event}
    (hhas : s.Has a e.ofConnection id) (hptr : s.native.userPointerMap id = some (some a))
    (hnative : s'.native = s.native.rtcSetCallback id e) :
    ∀ i e', e' ∈ s'.native.callbacks i →
      ∃ a, s'.native.userPointerMap i = some (some a) ∧ s'.Has a e'.ofConnection i := by
  obtain ⟨-, -, hpointers, hother, hself⟩ := Tables.rtcSetCallback_spec h.bounded id e
  intro i e' he'
  rw [hnative, hpointers]
  rw [hnative] at he'
  have hold : e' ∈ s.native.callbacks i →
      ∃ a, s.native.userPointerMap i = some (some a) ∧ s'.Has a e'.ofConnection i := by
    intro hmem
    obtain ⟨a', hptr', hhas'⟩ := h.registered i e' hmem
    exact ⟨a', hptr', hgrows.has _ _ _ hhas'⟩
  by_cases hi : i = id
  · subst hi
    rcases hself e' he' with rfl | hmem
    · exact ⟨a, hptr, hgrows.has _ _ _ hhas⟩
    · exact hold hmem
  · exact hold (hother i hi ▸ he')

theorem has_unique {a : Addr} {w : Wrapper} {ofConnection : Bool} {id : Int}
    (h : s.Has a ofConnection id) (hw : s.wrapper a = some w) : w.ofConnection = ofConnection ∧ w.id = id := by
  obtain ⟨w', hw', hkind, hid⟩ := h
  obtain rfl := Option.some.inj (hw.symm.trans hw')
  exact ⟨hkind, hid⟩

theorem registered_step (h : Shape s) (heff : Effect s s') :
    ∀ i e, e ∈ s'.native.callbacks i →
      ∃ a, s'.native.userPointerMap i = some (some a) ∧ s'.Has a e.ofConnection i := by
  have hgrows := h.grows_step heff
  cases heff with
  | newPeerConnection => exact h.registered_extends hgrows (Tables.rtcCreatePeerConnection_spec h.bounded _).extend
  | createDatachannel =>
      exact h.registered_extends hgrows (Tables.rtcCreateDataChannelEx_spec h.bounded _ _).extend
  | incoming => exact h.registered_extends hgrows (Tables.incomingDataChannel_spec h.bounded _).2.2.1
  | @point caller a w rest hs hw =>
      -- the id whose pointer changes has no callback yet
      obtain ⟨-, id, hhas, -, hnone, -⟩ := h.topOk hs
      obtain ⟨-, rfl⟩ := has_unique hhas hw
      intro i e he
      have hne : i ≠ w.id := by
        rintro rfl
        have hmem : e ∈ s.native.callbacks w.id := he
        rw [hnone] at hmem
        exact absurd hmem (by simp)
      obtain ⟨a', hptr, hhas'⟩ := h.registered i e he
      exact ⟨a', (Function.update_of_ne hne _ _).trans hptr, hgrows.has _ _ _ hhas'⟩
  | @register caller a e todo w rest hs hw =>
      obtain ⟨-, htodo, id, hhas, -, hptr, -⟩ := h.topOk hs
      obtain ⟨-, rfl⟩ := has_unique hhas hw
      rw [← htodo e List.mem_cons_self] at hhas
      exact h.registered_set hgrows hhas hptr rfl
  | registerDatachannel hs hw =>
      obtain ⟨-, id, hhas, -, hptr, -⟩ := h.topOk hs
      obtain ⟨-, rfl⟩ := has_unique hhas hw
      exact h.registered_set hgrows hhas hptr rfl
  | _ => exact h.registered_extends hgrows (.refl _)

/-! ## The queues -/

/-- An announcement is kept when its id keeps having no callback. -/
theorem announced_kept (h : Shape s) (hgrows : Grows s s') (hlast : s.native.lastId ≤ s'.native.lastId)
    (hcallbacks : ∀ x ∈ s.announcements, s'.native.callbacks x.node.dc = s.native.callbacks x.node.dc)
    {x : Announcement} (hx : x ∈ s.announcements) :
    s'.Has x.node.pc true x.raisedBy ∧ (x.node.dc : Int) ≤ (s'.native.lastId : Int) ∧
      s'.native.callbacks x.node.dc = [] := by
  obtain ⟨hhas, hle, hnone⟩ := h.announced x hx
  exact ⟨hgrows.has _ _ _ hhas, by omega, (hcallbacks x hx).trans hnone⟩

theorem announced_set (h : Shape s) (hgrows : Grows s s') {id : Int} {e : Event}
    (hid : ∀ x ∈ s.announcements, (x.node.dc : Int) ≠ id) (hnative : s'.native = s.native.rtcSetCallback id e)
    (hann : s'.announcements = s.announcements) :
    ∀ x ∈ s'.announcements, s'.Has x.node.pc true x.raisedBy ∧
      (x.node.dc : Int) ≤ (s'.native.lastId : Int) ∧ s'.native.callbacks x.node.dc = [] := by
  obtain ⟨-, hlast, -, hother, -⟩ := Tables.rtcSetCallback_spec h.bounded id e
  intro x hx
  rw [hann] at hx
  refine h.announced_kept hgrows (by rw [hnative, hlast]) ?_ hx
  intro y hy
  rw [hnative, hother _ (hid y hy)]

theorem announced_step (h : Shape s) (heff : Effect s s') :
    ∀ x ∈ s'.announcements, s'.Has x.node.pc true x.raisedBy ∧
      (x.node.dc : Int) ≤ (s'.native.lastId : Int) ∧ s'.native.callbacks x.node.dc = [] := by
  have hgrows := h.grows_step heff
  have hextends : s.native.Extends s'.native → ∀ x ∈ s.announcements, s'.Has x.node.pc true x.raisedBy ∧
      (x.node.dc : Int) ≤ (s'.native.lastId : Int) ∧ s'.native.callbacks x.node.dc = [] := fun hext x hx =>
    h.announced_kept hgrows hext.lastId (fun y _ => by rw [hext.callbacks]) hx
  cases heff with
  | newPeerConnection => exact hextends (Tables.rtcCreatePeerConnection_spec h.bounded _).extend
  | createDatachannel => exact hextends (Tables.rtcCreateDataChannelEx_spec h.bounded _ _).extend
  | point => exact fun x hx => h.announced_kept hgrows (Nat.le_refl _) (fun _ _ => rfl) hx
  | register hs hw =>
      obtain ⟨-, -, id, hhas, -, -, hid⟩ := h.topOk hs
      obtain ⟨-, rfl⟩ := has_unique hhas hw
      exact h.announced_set hgrows hid rfl rfl
  | registerDatachannel hs hw =>
      obtain ⟨-, id, hhas, -, -, hid⟩ := h.topOk hs
      obtain ⟨-, rfl⟩ := has_unique hhas hw
      exact h.announced_set hgrows hid rfl rfl
  | popAnnouncement hs hx =>
      exact fun y hy => hextends (.refl _) y (by rw [hx]; exact List.mem_cons_of_mem _ hy)
  | @incoming pc ptr hent =>
      obtain ⟨hid, hbounded, hext, hlast⟩ := Tables.incomingDataChannel_spec h.bounded pc
      intro x hx
      rcases List.mem_append.mp hx with hx | hx
      · exact hextends hext x hx
      · obtain rfl := List.mem_singleton.mp hx
        obtain ⟨a, hptr, hhas⟩ := h.registered_entered hent
        obtain rfl := Option.some.inj hptr
        have hpos := s.native.incomingDataChannel_toNat pc
        refine ⟨hgrows.has _ _ _ hhas, ?_, ?_⟩
        · show (((s.native.incomingDataChannel pc).1.toNat : Nat) : Int) ≤ _
          rw [hpos, hlast]
          unfold Tables.nextId
          omega
        · show (s.native.incomingDataChannel pc).2.callbacks _ = []
          rw [hext.callbacks]
          show s.native.callbacks (((s.native.incomingDataChannel pc).1.toNat : Nat) : Int) = []
          rw [hpos]
          exact Tables.nextId_fresh h.bounded
  | _ => exact hextends (.refl _)

/-- The channels of announcements are different ones. -/
theorem distinct_step (h : Shape s) (heff : Effect s s') :
    (s'.announcements.map fun x => x.node.dc).Nodup := by
  have hdistinct := h.distinct
  cases heff with
  | popAnnouncement hs hx =>
      rw [hx, List.map_cons] at hdistinct
      exact (List.nodup_cons.mp hdistinct).2
  | @incoming pc ptr hent =>
      rw [List.map_append]
      refine List.nodup_append.mpr ⟨hdistinct, List.pairwise_singleton _ _, ?_⟩
      rintro d hd d' hd' rfl
      obtain ⟨x, hx, rfl⟩ := List.mem_map.mp hd
      have hnew : x.node.dc = (s.native.incomingDataChannel pc).1.toNat := List.mem_singleton.mp hd'
      apply Tables.ne_nextId (h.announced x hx).2.1
      rw [hnew, s.native.incomingDataChannel_toNat]
  | _ => exact hdistinct

/-- What a callback queues is for the field of the wrapper it is entered with, and well formed. -/
theorem wellFormed_post {cb : NativeCallback} {ptr : Addr} {openCb : Bool} {r : CallbackResult} {i : Int}
    (h : (cb.withPointer ptr openCb).post = some (.result r)) :
    r.closure.owner = ptr ∧ Node.WellFormed ⟨r, cb.event, i⟩ := by
  cases cb with
  | description _ sdp type | candidate _ sdp type | stateChange _ state | gatheringState _ state
  | closed | error _ msg | bufferedAmountLow =>
      obtain rfl := Post.result.inj (Option.some.inj h)
      exact ⟨rfl, rfl, _, rfl, rfl⟩
  | opened _ _ label buffer =>
      obtain ⟨r', hr', hr⟩ := Option.map_eq_some_iff.mp h
      obtain rfl := Post.result.inj hr
      unfold openCallback at hr'
      split at hr'
      · exact absurd hr' (by simp)
      · split at hr' <;>
          (obtain rfl := Option.some.inj hr'
           exact ⟨rfl, rfl, _, rfl, rfl⟩)
  | message _ data size =>
      obtain rfl := Post.result.inj (Option.some.inj h)
      unfold messageCallback
      split <;> exact ⟨rfl, rfl, _, rfl, rfl⟩
  | dataChannel _ dc => exact absurd h (by simp [NativeCallback.withPointer, NativeCallback.post])

theorem queued_step (h : Shape s) (heff : Effect s s') :
    ∀ n ∈ s'.results, s'.Has n.result.closure.owner n.event.ofConnection n.raisedBy ∧ n.WellFormed := by
  have hgrows := h.grows_step heff
  have hold : ∀ n ∈ s.results, s'.Has n.result.closure.owner n.event.ofConnection n.raisedBy ∧ n.WellFormed :=
    fun n hn => ⟨hgrows.has _ _ _ (h.queued n hn).1, (h.queued n hn).2⟩
  cases heff with
  | handle hs hn => exact fun m hm => hold m (by rw [hn]; exact List.mem_cons_of_mem _ hm)
  | raise hent hpost =>
      intro n hn
      rcases List.mem_append.mp hn with hn | hn
      · exact hold n hn
      · obtain rfl := List.mem_singleton.mp hn
        obtain ⟨a, hptr, hhas⟩ := h.registered_entered hent
        obtain rfl := Option.some.inj hptr
        obtain ⟨howner, hwf⟩ := wellFormed_post hpost
        exact ⟨howner ▸ hgrows.has _ _ _ hhas, hwf⟩
  | _ => exact hold

/-! ## The call on top -/

/-- Native threads leave the call on top what it relies on. -/
theorem frameOk_native {f : Frame} (hf : s.FrameOk f) (hblock : s'.block = s.block)
    (hext : s.native.Extends s'.native)
    (hann : ∀ x ∈ s'.announcements, x ∈ s.announcements ∨ (s.native.lastId : Int) < (x.node.dc : Int)) :
    s'.FrameOk f := by
  have hgrows := Grows.of_same hblock
  have hcaller : ∀ {caller}, s.CallerOk caller → s'.CallerOk caller :=
    State.callerOk_kept fun a b hb => by rwa [hblock]
  have hne : ∀ {id : Int}, id ≤ (s.native.lastId : Int) → (∀ x ∈ s.announcements, (x.node.dc : Int) ≠ id) →
      ∀ x ∈ s'.announcements, (x.node.dc : Int) ≠ id := by
    intro id hle hid x hx
    rcases hann x hx with hx | hlt
    · exact hid x hx
    · omega
  have hlast := hext.lastId
  have hunused : ∀ {id}, s.Unused id → s'.Unused id := by
    rintro id ⟨hle, hnone, hid⟩
    exact ⟨by omega, by rw [hext.callbacks, hnone], hne hle hid⟩
  have hpointed : ∀ {id a}, s.Pointed id a → s'.Pointed id a := by
    rintro id a ⟨hle, hptr, hid⟩
    exact ⟨by omega, (hext.pointers id hle).trans hptr, hne hle hid⟩
  cases f with
  | creating caller id => exact ⟨hcaller hf.1, hunused hf.2⟩
  | allocated caller a =>
      obtain ⟨hok, id, hhas, hid⟩ := hf
      exact ⟨hcaller hok, id, hgrows.has _ _ _ hhas, hunused hid⟩
  | registering caller a todo =>
      obtain ⟨hok, htodo, id, hhas, hid⟩ := hf
      exact ⟨hcaller hok, htodo, id, hgrows.has _ _ _ hhas, hpointed hid⟩
  | constructing a pc incoming =>
      obtain ⟨id, hhas⟩ := hf
      exact ⟨id, hgrows.has _ _ _ hhas⟩
  | installing o a todo site =>
      obtain ⟨ho, id, hhas, hid⟩ := hf
      exact ⟨hgrows.inner _ _ ho, id, hgrows.has _ _ _ hhas, fun hsite => hpointed (hid hsite)⟩
  | registeringDatachannel o a =>
      obtain ⟨ho, id, hhas, hid⟩ := hf
      exact ⟨hgrows.inner _ _ ho, id, hgrows.has _ _ _ hhas, hpointed hid⟩
  | _ => trivial

/-- An id that a creation returned is for no announcement. -/
theorem unused_created (h : Shape s) {created : Int × Tables Addr} (hspec : s.native.Creates created)
    (hnative : s'.native = created.2) (hann : s'.announcements = s.announcements) : s'.Unused created.1 := by
  refine ⟨hnative ▸ hspec.le, hnative ▸ hspec.fresh, ?_⟩
  intro x hx
  rw [hann] at hx
  have hle := (h.announced x hx).2.1
  rcases hspec.new with hneg | hnext
  · omega
  · rw [hnext]
    exact Tables.ne_nextId hle

/-- The new top is `f`. -/
theorem top_new {f : Frame} {rest : List Frame} (hs' : s'.stack = f :: rest) (hf : s'.FrameOk f) :
    ∀ g, s'.stack.head? = some g → s'.FrameOk g := by
  intro g hg
  rw [hs', List.head?_cons, Option.some.injEq] at hg
  exact hg ▸ hf

/-- The new top is what was below the old one. -/
theorem top_rest (h : Shape s) {f : Frame} {rest : List Frame} (hs : s.stack = f :: rest)
    (hs' : s'.stack = rest) : ∀ g, s'.stack.head? = some g → s'.FrameOk g := by
  intro g hg
  rw [hs'] at hg
  exact State.frameOk_of_not_builds (h.rest_not_builds hs (List.mem_of_mem_head? hg))

theorem top_step (h : Shape s) (heff : Effect s s') : ∀ f, s'.stack.head? = some f → s'.FrameOk f := by
  have hgrows := h.grows_step heff
  have hruns : applicationRuns s.stack = true → s'.stack = s.stack →
      ∀ f, s'.stack.head? = some f → s'.FrameOk f := by
    intro hrun hs' f hf
    rw [hs'] at hf
    exact State.frameOk_of_not_builds (not_builds_of_runs hrun f hf)
  have hnative : s'.stack = s.stack → s'.block = s.block → s.native.Extends s'.native →
      (∀ x ∈ s'.announcements, x ∈ s.announcements ∨ (s.native.lastId : Int) < (x.node.dc : Int)) →
      ∀ f, s'.stack.head? = some f → s'.FrameOk f := by
    intro hs' hblock hext hann f hf
    rw [hs'] at hf
    exact frameOk_native (h.top f hf) hblock hext hann
  cases heff with
  | hold hrun => exact hruns hrun rfl
  | link hrun => exact hruns hrun rfl
  | allocate hrun => exact hruns hrun rfl
  | newPeerConnection hrun =>
      refine top_new rfl ⟨⟨.plain, ?_, rfl⟩, ?_⟩
      · exact State.object_eq_some.mpr (State.alloc_block_self _)
      · exact h.unused_created (Tables.rtcCreatePeerConnection_spec h.bounded _) rfl rfl
  | createDatachannel =>
      exact top_new rfl ⟨trivial, h.unused_created (Tables.rtcCreateDataChannelEx_spec h.bounded _ _) rfl rfl⟩
  | @make caller id rest hs =>
      obtain ⟨hok, hunused⟩ := h.topOk hs
      refine top_new rfl ⟨?_, id, ⟨.alloc caller.ofConnection id, ?_, rfl, rfl⟩, hunused⟩
      · exact State.callerOk_kept (kept_alloc (h.fresh _ (Nat.le_refl _)) rfl) hok
      · exact State.wrapper_eq_some.mpr (State.alloc_block_self _)
  | point hs hw =>
      obtain ⟨hok, id, hhas, hle, -, hid⟩ := h.topOk hs
      obtain ⟨-, rfl⟩ := has_unique hhas hw
      refine top_new rfl ⟨?_, ofConnection_registrations _, _, hhas, hle, Function.update_self .., hid⟩
      exact hok
  | @register caller a e todo w rest hs hw =>
      obtain ⟨hok, htodo, id, hhas, hle, hptr, hid⟩ := h.topOk hs
      obtain ⟨-, hlast, hpointers, -, -⟩ := Tables.rtcSetCallback_spec h.bounded w.id e
      refine top_new rfl ⟨hok, fun e' he' => htodo e' (List.mem_cons_of_mem _ he'), id, hhas, ?_, ?_, hid⟩
      · show id ≤ ((s.native.rtcSetCallback w.id e).lastId : Int)
        rwa [hlast]
      · show (s.native.rtcSetCallback w.id e).userPointerMap id = _
        rwa [hpointers]
  | @assignInner o a ob rest hs ho =>
      obtain ⟨-, -, id, hhas, hpointed⟩ := h.topOk hs
      refine top_new rfl ⟨⟨_, State.object_eq_some.mpr (State.set_block_self ..), rfl⟩, id, hgrows.has _ _ _ hhas,
        fun _ => hpointed⟩
  | created hs =>
      obtain ⟨-, -, id, hhas, -⟩ := h.topOk hs
      exact top_new rfl ⟨id, hhas⟩
  | announced hs =>
      obtain ⟨-, -, id, hhas, -⟩ := h.topOk hs
      exact top_new rfl ⟨id, hhas⟩
  | construct hs =>
      obtain ⟨id, hhas⟩ := h.topOk hs
      refine top_new rfl ⟨⟨_, State.object_eq_some.mpr (State.alloc_block_self _), rfl⟩, id, hgrows.has _ _ _ hhas,
        fun hsite => absurd hsite (by simp)⟩
  | install hs hw =>
      obtain ⟨ho, id, hhas, hpointed⟩ := h.topOk hs
      exact top_new rfl ⟨hgrows.inner _ _ ho, id, hgrows.has _ _ _ hhas, hpointed⟩
  | installedConnection hs =>
      obtain ⟨ho, id, hhas, hpointed⟩ := h.topOk hs
      exact top_new rfl ⟨ho, id, hhas, hpointed rfl⟩
  | installedAll hs => exact h.top_rest hs rfl
  | registerDatachannel hs =>
      obtain ⟨ho, id, hhas, -⟩ := h.topOk hs
      exact top_new rfl ⟨ho, id, hhas, fun hsite => absurd hsite (by simp)⟩
  | @push pc o incoming ob rest hs =>
      cases incoming with
      | true => exact top_new rfl trivial
      | false => exact h.top_rest hs rfl
  | @popAnnouncement x xs rest hs hx =>
      have hmem : x ∈ s.announcements := by rw [hx]; exact List.mem_cons_self
      obtain ⟨hhas, hle, hnone⟩ := h.announced x hmem
      refine top_new rfl ⟨hhas, hle, hnone, ?_⟩
      intro y hy hdc
      have hdistinct := h.distinct
      rw [hx, List.map_cons] at hdistinct
      refine (List.nodup_cons.mp hdistinct).1 (List.mem_map.mpr ⟨y, hy, ?_⟩)
      exact Int.ofNat_inj.mp hdc
  | drained hs | throwOnDataChannel hs | throwHandling hs => exact h.top_rest hs rfl
  | processEvents | announcedNone | installedChannel | noAnnouncement | handle | retOnDataChannel
  | retHandling => exact top_new rfl trivial
  | announcedNull | nullCall => exact hnative rfl rfl (.refl _) fun _ => .inl
  | raise | ignored | close => exact hnative rfl rfl (.refl _) fun _ => .inl
  | @incoming pc ptr hent =>
      obtain ⟨-, -, hext, -⟩ := Tables.incomingDataChannel_spec h.bounded pc
      apply hnative rfl rfl hext
      intro x hx
      rcases List.mem_append.mp hx with hx | hx
      · exact .inl hx
      · obtain rfl := List.mem_singleton.mp hx
        right
        show (s.native.lastId : Int) < (((s.native.incomingDataChannel pc).1.toNat : Nat) : Int)
        rw [s.native.incomingDataChannel_toNat]
        exact Tables.lastId_lt_nextId

/-! ## The collector -/

/-- **Every wrapper is reachable**: from one of its own fields, through the closure there and the object that it
    captures, or from the call that makes it. -/
theorem reachable_wrapper (h : Shape s) {a : Addr} {w : Wrapper} (hw : s.wrapper a = some w) :
    s.Reachable a := by
  obtain ⟨e, he⟩ : ∃ e : Event, e.ofConnection = w.ofConnection := by
    cases w.ofConnection with
    | true => exact ⟨.description, rfl⟩
    | false => exact ⟨.opened, rfl⟩
  rcases h.standing a w e hw he with ⟨w', c, o, hw', hcell, hc, ob, ho, hinner⟩ | ⟨f, hf, hawaits⟩
  · have hroot : s.Root (fun _ => True) c := .cell trivial hw' (h.alive a w' hw').1 hcell
    have hobject : s.Reachable o := (Reach.Reachable.of_root hroot).step (.captured hc)
    exact hobject.step (.inner ho hinner)
  · exact .of_root (.stack (List.mem_of_mem_head? hf) hawaits.held.2)

/-- **Step lemma.** -/
theorem step (h : Shape s) {act : Act} (hadm : s.Admitted act) (hstep : s.step act = some s') : Shape s' := by
  rcases State.effect_of_step hstep with ⟨a, w, rfl, hw, -⟩ | heff
  · exact absurd (h.reachable_wrapper hw) hadm
  · exact {
      live := h.live_step heff
      fresh := h.fresh_step heff
      alive := fun _ _ hw => h.alive_step heff hw
      standing := fun _ _ _ hw he => h.standing_step heff hw he
      bounded := h.bounded_step heff
      registered := h.registered_step heff
      announced := h.announced_step heff
      distinct := h.distinct_step heff
      queued := h.queued_step heff
      below := h.below_step heff
      top := h.top_step heff }

end Shape

/-- **Every reachable state has this shape.** -/
theorem shape_path (h : Path State.step State.Admitted .init s) : Shape s :=
  h.invariant (fun _ _ _ hs hadm hstep => hs.step hadm hstep) shape_init

end HxDatachannel.Heap
