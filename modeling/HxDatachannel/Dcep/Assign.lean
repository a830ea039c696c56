import HxDatachannel.Dcep.Steps

/-!
# `Dcep.Assign` — streams for channels

`assignDataChannels` gives every channel that waits the first stream of its peer's parity that the table
does not hold. Together with `emplaceDataChannel` and the callback for the state `Connected` it keeps the
invariant.
-/

namespace HxDatachannel.Dcep

open Link Lts

variable {cfg : Config} {σ σ' : Peers} {p : Role} {i s : Nat} {c c' d : DataChannel}

/-! ## Streams for channels -/

/-- The invariant says nothing about the other fields of a peer. -/
theorem Inv.congr (h : Inv cfg σ) (hchannels : ∀ r, (σ'.peer r).channels = (σ.peer r).channels)
    (hcount : ∀ r, (σ'.peer r).count = (σ.peer r).count)
    (htable : ∀ r, (σ'.peer r).mDataChannels = (σ.peer r).mDataChannels) (hwire : σ'.wire = σ.wire)
    (hfaults : σ'.faults = σ.faults) : Inv cfg σ' := by
  have hentry : ∀ r s, σ'.entry r s = σ.entry r s := by
    intro r s
    rw [Peers.entry, Peers.entry, htable, hchannels]
  refine ⟨?_, ?_, ?_, ?_, ?_, ?_, ?_, hfaults.trans h.faults⟩
  · intro r i c hc
    rw [hchannels] at hc
    rw [hcount]
    exact h.made r i c hc
  · intro r s i hi
    rw [htable] at hi
    rw [hchannels]
    exact h.entry r s i hi
  · intro r i c s hc
    rw [hchannels] at hc
    rw [htable]
    exact h.listed r i c s hc
  · intro r s
    have hsees := h.sees r s
    unfold Peers.sees at hsees ⊢
    rw [hentry, hentry, hwire]
    refine hsees.claim ?_
    rintro a - ⟨j, b, hb, hpartner⟩
    rw [hchannels] at hb
    exact ⟨j, b, hb, hpartner⟩
  · intro r j b i hb
    rw [hchannels] at hb
    rw [hchannels]
    exact h.linked r j b i hb
  · intro r j b j' b' i hb hb'
    rw [hchannels] at hb hb'
    exact h.unique r j b j' b' i hb hb'
  · rw [hwire]
    exact h.small

/-- What `p` is, apart from its channels, its table and its count. -/
theorem Inv.setPeer {P Q : Peer} (h : Inv cfg (σ.setPeer p P)) (hchannels : Q.channels = P.channels)
    (hcount : Q.count = P.count) (htable : Q.mDataChannels = P.mDataChannels) :
    Inv cfg (σ.setPeer p Q) := by
  refine h.congr ?_ ?_ ?_ rfl rfl <;>
  · intro r
    rcases p.eq_or_other r with rfl | rfl <;> simp [hchannels, hcount, htable]

/-- The stream that the loop finds is free and has the parity it began with. -/
theorem freeStream_eq_some {table : Nat → Option Nat} {maxStream fuel stream s : Nat}
    (h : freeStream table maxStream fuel stream = some s) :
    table s = none ∧ s % 2 = stream % 2 ∧ s ≤ maxStream := by
  induction fuel generalizing stream with
  | zero => exact absurd h (by simp [freeStream])
  | succ fuel ih =>
      rw [freeStream] at h
      split at h
      · exact absurd h (by simp)
      · rename_i hle
        split at h
        · rename_i hfree
          obtain rfl := Option.some.inj h
          exact ⟨hfree, rfl, Nat.not_lt.mp hle⟩
        · obtain ⟨hfree, hparity, hmax⟩ := ih h
          exact ⟨hfree, by omega, hmax⟩

/-- One channel gets a stream. -/
theorem Inv.assign {P : Peer} (h : Inv cfg (σ.setPeer p P)) (hc : P.channels i = some c)
    (hnone : c.mStream = none) (hfree : P.mDataChannels s = none) (hparity : s % 2 = p.parity) :
    Inv cfg (σ.setPeer p { P.setChannel i { c with mStream := some s } with
      mDataChannels := Function.update P.mDataChannels s (some i) }) := by
  have hc' : ((σ.setPeer p P).peer p).channels i = some c := by rw [setPeer_self, hc]
  have hmade := h.made p i c hc'
  obtain ⟨hout, hun⟩ := hmade.unassigned hnone
  have howner : owner s = p := (owner_eq_iff s p).mpr hparity
  have hplaced : Placed cfg (σ.setPeer p P) (σ.setPeer p { P.setChannel i { c with mStream := some s } with
      mDataChannels := Function.update P.mDataChannels s (some i) }) p i { c with mStream := some s } := by
    refine ⟨?_, ?_, by simp, by simp, ?_, ?_, by simp, fun _ _ _ => rfl, rfl, ?_⟩
    · intro c₀ hc₀
      rwa [Option.some.inj (hc₀.symm.trans hc')]
    · rw [setPeer_self] at hmade ⊢
      exact { hmade with unassigned := fun hnone => absurd hnone (by simp) }
    · intro s' hs'
      obtain rfl : s = s' := Option.some.inj hs'
      rw [setPeer_self, setPeer_self]
      exact ⟨hfree, Function.update_self .., fun _ => howner, fun _ => hout⟩
    · intro s' hs'
      rw [setPeer_self, setPeer_self]
      exact Function.update_of_ne (fun he => hs' (congrArg some he.symm)) ..
    · intro k hk
      rw [hmade.partner hout] at hk
      exact absurd hk (by simp)
  refine hplaced.inv h ?_ (fun r s' _ => h.small r s')
  intro s' hs'
  obtain rfl : s = s' := Option.some.inj hs'
  have hsees := h.sees p s
  unfold Peers.sees at hsees ⊢
  rw [entry_none (by rw [setPeer_self]; exact hfree)] at hsees
  rw [entry_eq (by rw [setPeer_self]; exact Function.update_self ..) hplaced.after, decide_eq_true howner]
  rw [decide_eq_true howner] at hsees
  have hother : ∀ Q, (σ.setPeer p Q).entry p.other s = (σ.setPeer p P).entry p.other s := by
    intro Q
    rw [Peers.entry, Peers.entry, setPeer_other, setPeer_other]
  rw [hother]
  have hold : Stage _ none _ _ _ := hsees
  refine Stage.claim (hold.assign ?_ { hun with }) ?_
  · rintro ⟨j, b, hb, hpartner⟩
    rw [howner] at hb
    obtain ⟨a, ha, hlinked⟩ := h.linked p j b c.id hb hpartner
    rw [hmade.id] at ha
    obtain rfl : a = c := Option.some.inj (ha.symm.trans hc')
    have hopened := hlinked.opened
    rw [hun.opened] at hopened
    exact absurd hopened (by simp)
  · rintro a - hclaim
    rcases hplaced.claimed hclaim with hclaim | ⟨hr, -⟩
    · exact hclaim
    · rw [howner] at hr
      exact absurd hr p.other_ne

theorem Inv.assignDataChannels (is : List Nat) {P : Peer} (h : Inv cfg (σ.setPeer p P)) :
    Inv cfg (σ.setPeer p (P.assignDataChannels cfg.maxStream p is).1) := by
  induction is generalizing P with
  | nil => exact h.setPeer rfl rfl rfl
  | cons i is ih =>
      unfold Peer.assignDataChannels
      split
      · exact ih h
      · rename_i c hc
        split
        · exact ih h
        · split
          · exact h
          · rename_i s hs
            split
            · exact h
            · rename_i hnone
              obtain ⟨hfree, hparity, -⟩ := freeStream_eq_some hs
              have hpar : s % 2 = p.parity := by
                rw [hparity]
                cases p <;> rfl
              exact ih (h.assign hc (by simpa using hnone) hfree hpar)

/-- Where all channels that wait got a stream, each of them has one and is what it was. -/
theorem assignDataChannels_ok {maxStream : Nat} {is : List Nat} {P P' : Peer}
    (h : P.assignDataChannels maxStream p is = (P', none)) {j : Nat} (hc : P.channels j = some c) :
    ∃ s?, P'.channels j = some { c with mStream := s? } ∧
      (c.mStream.isSome = true ∨ (j ∈ is ∧ c.destroyed = false) → s?.isSome = true) := by
  induction is generalizing P c with
  | nil =>
      simp only [Peer.assignDataChannels, Prod.mk.injEq, and_true] at h
      subst h
      exact ⟨c.mStream, hc, fun hsome => hsome.resolve_right (by simp)⟩
  | cons i is ih =>
      unfold Peer.assignDataChannels at h
      split at h
      · rename_i hnone
        obtain ⟨s?, hc', hsome⟩ := ih h hc
        refine ⟨s?, hc', fun h' => hsome (h'.imp id ?_)⟩
        rintro ⟨hj, hd⟩
        rcases List.mem_cons.mp hj with rfl | hj
        · rw [hnone] at hc
          exact absurd hc (by simp)
        · exact ⟨hj, hd⟩
      · rename_i c₀ hc₀
        split at h
        · rename_i hdest
          obtain ⟨s?, hc', hsome⟩ := ih h hc
          refine ⟨s?, hc', fun h' => hsome (h'.imp id ?_)⟩
          rintro ⟨hj, hd⟩
          rcases List.mem_cons.mp hj with rfl | hj
          · obtain rfl : c₀ = c := Option.some.inj (hc₀.symm.trans hc)
            rw [hd] at hdest
            exact absurd hdest (by simp)
          · exact ⟨hj, hd⟩
        · split at h
          · exact absurd h (by simp)
          · rename_i stream _
            split at h
            · exact absurd h (by simp)
            · by_cases hj : j = i
              · subst hj
                obtain rfl : c₀ = c := Option.some.inj (hc₀.symm.trans hc)
                obtain ⟨s?, hc', hsome⟩ := ih (c := { c₀ with mStream := some stream }) h (by simp)
                exact ⟨s?, hc', fun _ => hsome (.inl rfl)⟩
              · obtain ⟨s?, hc', hsome⟩ := ih (c := c) h (by simp [Function.update_of_ne hj, hc])
                refine ⟨s?, hc', fun h' => hsome (h'.imp id ?_)⟩
                rintro ⟨hmem, hd⟩
                exact ⟨(List.mem_cons.mp hmem).resolve_left hj, hd⟩

/-! ## New channels -/

theorem setPeer_setPeer (σ : Peers) (p : Role) (P Q : Peer) : (σ.setPeer p P).setPeer p Q = σ.setPeer p Q := by
  simp [Peers.setPeer]

theorem setPeer_eq (σ : Peers) (p : Role) : σ.setPeer p (σ.peer p) = σ := by
  simp [Peers.setPeer]

theorem Inv.emplaceDataChannel (h : Inv cfg σ) {label protocol : Bytes} {reliability : Reliability}
    (hfits : Fits cfg label protocol) : Inv cfg (σ.emplaceDataChannel cfg p label protocol reliability) := by
  unfold Peers.emplaceDataChannel
  split
  · exact h
  · rename_i hrel
    simp only
    have hnew : ∀ c, (σ.peer p).channels (σ.peer p).count ≠ some c := by
      intro c hc
      exact absurd (h.made p _ c hc).lt (Nat.lt_irrefl _)
    -- the new channel waits for a stream
    generalize hc : OutgoingDataChannel.make (σ.peer p).count label protocol reliability = c
    generalize hP : (σ.peer p).waiting c = P
    have hchan : P.channels (σ.peer p).count = some c := by
      rw [← hP]
      exact Function.update_self ..
    have hnone : c.mStream = none := by rw [← hc]; rfl
    have hplaced : Placed cfg σ (σ.setPeer p P) p (σ.peer p).count c := by
      refine ⟨fun c hc => absurd hc (hnew c), ?_, ?_, ?_, ?_, ?_, by simp, fun _ _ _ => rfl, rfl, ?_⟩
      · rw [setPeer_self, ← hP, ← hc]
        refine ⟨rfl, Nat.lt_succ_self _, fun _ => hfits, ?_, fun _ => rfl, nofun, nofun,
          fun _ => ⟨rfl, rfl, rfl, rfl, rfl, rfl⟩, nofun⟩
        show reliability.maxPacketLifeTime = none ∨ reliability.maxRetransmits = none
        cases hl : reliability.maxPacketLifeTime with
        | none => exact .inl rfl
        | some l =>
            cases hn : reliability.maxRetransmits with
            | none => exact .inr rfl
            | some n => simp [hl, hn] at hrel
      · rw [setPeer_self, ← hP]
        rfl
      · rw [setPeer_self, ← hP]
        exact Nat.le_succ _
      · intro s hs
        exact absurd (hnone ▸ hs) (by simp)
      · intro s _
        rw [setPeer_self, ← hP]
        rfl
      · intro k hk
        have hpartner : c.partner = none := by rw [← hc]; rfl
        exact absurd (hpartner ▸ hk) (by simp)
    have hinv : Inv cfg (σ.setPeer p P) := by
      refine hplaced.inv h ?_ (fun r s _ => h.small r s)
      intro s hs
      exact absurd (hnone ▸ hs) (by simp)
    have hmem : (σ.peer p).count ∈ P.mUnassignedDataChannels := by
      rw [← hP]
      exact List.mem_append_right _ (List.mem_singleton_self _)
    split
    · exact hinv
    · have hassigned := hinv.assignDataChannels P.mUnassignedDataChannels
      split
      · rename_i P' e heq
        rw [heq] at hassigned
        exact hassigned.destroy p _
      · rename_i P' heq
        rw [heq] at hassigned
        obtain ⟨s?, hc', hsome⟩ := assignDataChannels_ok heq hchan
        have hchan' : ((σ.setPeer p P').peer p).channels (σ.peer p).count =
            some { c with mStream := s? } := by
          rw [setPeer_self, hc']
        obtain ⟨s, rfl⟩ : ∃ s, s? = some s :=
          Option.isSome_iff_exists.mp (hsome (.inr ⟨hmem, by rw [← hc]; rfl⟩))
        have hopen := hassigned.open hchan' (by rw [← hc]; rfl) rfl (by rw [← hc]; rfl) (by rw [← hc]; rfl)
        split
        · rename_i σ₁ e hσ₁
          rw [hσ₁] at hopen
          exact hopen.destroy p _
        · rename_i σ₁ hσ₁
          rw [hσ₁] at hopen
          exact hopen

theorem Inv.connected (h : Inv cfg σ) : Inv cfg (σ.connected cfg p) := by
  unfold Peers.connected
  simp only
  have hself : Inv cfg (σ.setPeer p (σ.peer p)) := by
    rw [setPeer_eq]
    exact h
  have hconnected : Inv cfg (σ.setPeer p { σ.peer p with connected := true }) := hself.setPeer rfl rfl rfl
  have hassigned := hconnected.assignDataChannels (σ.peer p).mUnassignedDataChannels
  split
  · rename_i P e heq
    rw [heq] at hassigned
    exact hassigned
  · rename_i P heq
    rw [heq] at hassigned
    exact hassigned.setPeer rfl rfl rfl

end HxDatachannel.Dcep
