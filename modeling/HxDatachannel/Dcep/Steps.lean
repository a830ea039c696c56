import HxDatachannel.Dcep.Invariant

/-!
# `Dcep.Steps` — closing, sending and opening keep the invariant

The steps that change one channel and send at most one message. `Ready` is what `openDataChannels` needs:
it finds no channel whose open message is on the way already.
-/

namespace HxDatachannel.Dcep

open Link Lts

variable {cfg : Config} {σ σ' : Peers} {p : Role} {i s : Nat} {c c' d : DataChannel}

/-! ## Transports -/

@[simp] theorem transport_peer (σ : Peers) (p : Role) (s : Nat) (m : Message) :
    (σ.transport p s m).peer = σ.peer := rfl

@[simp] theorem transport_faults (σ : Peers) (p : Role) (s : Nat) (m : Message) :
    (σ.transport p s m).faults = σ.faults := rfl

@[simp] theorem transport_self (σ : Peers) (p : Role) (s : Nat) (m : Message) :
    (σ.transport p s m).wire p s = σ.wire p s ++ [m] := setWire_self ..

@[simp] theorem transport_other (σ : Peers) (p : Role) (s s' : Nat) (m : Message) :
    (σ.transport p s m).wire p.other s' = σ.wire p.other s' := setWire_other ..

theorem transport_stream (σ : Peers) (p r : Role) {s s' : Nat} (m : Message) (h : s' ≠ s) :
    (σ.transport p s m).wire r s' = σ.wire r s' := setWire_stream σ p r _ h

/-- What a transport accepts is small if it was small. -/
theorem transport_small (h : ∀ r s, ∀ m ∈ σ.wire r s, m.data.length ≤ cfg.limit) {m : Message}
    (hm : m.data.length ≤ cfg.limit) (r : Role) (s' : Nat) :
    ∀ x ∈ (σ.transport p s m).wire r s', x.data.length ≤ cfg.limit := by
  intro x hx
  rcases p.eq_or_other r with rfl | rfl
  · by_cases hs : s' = s
    · subst hs
      rw [transport_self] at hx
      rcases List.mem_append.mp hx with hx | hx
      · exact h _ _ x hx
      · exact List.mem_singleton.mp hx ▸ hm
    · rw [transport_stream σ r r m hs] at hx
      exact h _ _ x hx
  · rw [transport_other] at hx
    exact h _ _ x hx

theorem closeStream_eq (σ : Peers) (p : Role) (s i : Nat) :
    σ.closeStream p s (some i) = σ.transport p s (reset i) := rfl

/-! ## One channel -/

/-- The stage of the stream of a channel that changes. -/
theorem Changed.sees_self (h : Changed σ σ' p i c c') {e? : Option DataChannel} (he : σ'.entry p s = e?)
    (hsees : Sees (σ.Claimed (owner s)) (owner s = p) e? (σ.entry p.other s) (σ'.wire p s)
      (σ'.wire p.other s)) : σ'.sees p s := by
  have hother : σ'.entry p.other s = σ.entry p.other s := by rw [Peers.entry, Peers.entry, h.other]
  show Sees _ _ _ _ _ _
  rw [he, hother]
  exact hsees.claim fun _ _ => h.claimed

theorem Changed.entry_self (h : Changed σ σ' p i c c') (ht : (σ'.peer p).mDataChannels s = some i) :
    σ'.entry p s = some c' := entry_eq ht h.after

/-- A channel changes and sends a message. -/
theorem Changed.transport (hc : (σ.peer p).channels i = some c) (he : Evolves c c')
    (hs : c.mStream = some s) (m : Message) :
    Changed σ ((σ.setChannel p i c').transport p s m) p i c c' := by
  refine ⟨hc, he, by simp, by simp, fun _ => .inl (by simp), by simp, ?_, rfl⟩
  intro r s' hs'
  rw [transport_stream _ _ _ _ (by rintro rfl; exact hs' hs), setChannel_wire]

/-- A channel changes and sends nothing. -/
theorem Changed.setChannel (hc : (σ.peer p).channels i = some c) (he : Evolves c c') :
    Changed σ (σ.setChannel p i c') p i c c' :=
  ⟨hc, he, by simp, by simp, fun _ => .inl (by simp), by simp, fun _ _ _ => rfl, rfl⟩

/-- A channel that has a stream and is not closed changes and sends a message. -/
theorem Inv.transport (h : Inv cfg σ) (hc : (σ.peer p).channels i = some c) (he : Evolves c c')
    (hs : c.mStream = some s) (hopen : c.mIsClosed = false) {m : Message} (hm : m.data.length ≤ cfg.limit)
    (hreceived : c'.received = c.received)
    (hsees : ∀ d?, Sees (σ.Claimed (owner s)) (owner s = p) (some c) d? (σ.wire p s) (σ.wire p.other s) →
      Sees (σ.Claimed (owner s)) (owner s = p) (some c') d? (σ.wire p s ++ [m]) (σ.wire p.other s)) :
    Inv cfg ((σ.setChannel p i c').transport p s m) := by
  have hchanged := Changed.transport hc he hs m
  have ht := h.listed_open hc hs hopen
  refine hchanged.inv h ?_ (.inl hreceived) (fun r s' _ => transport_small h.small hm r s')
  intro s' hs'
  obtain rfl : s = s' := Option.some.inj (hs.symm.trans hs')
  refine hchanged.sees_self (hchanged.entry_self (by simpa using ht)) ?_
  rw [transport_self, transport_other, setChannel_wire]
  refine hsees _ ?_
  have := h.sees p s
  rwa [Peers.sees, entry_eq ht hc] at this

/-- A channel changes and sends nothing. -/
theorem Inv.setChannel (h : Inv cfg σ) (hc : (σ.peer p).channels i = some c) (he : Evolves c c')
    (hreceived : c'.received = c.received)
    (hsees : ∀ s d?, c.mStream = some s →
      Sees (σ.Claimed (owner s)) (owner s = p) (some c) d? (σ.wire p s) (σ.wire p.other s) →
      Sees (σ.Claimed (owner s)) (owner s = p) (some c') d? (σ.wire p s) (σ.wire p.other s)) :
    Inv cfg (σ.setChannel p i c') := by
  have hchanged := Changed.setChannel hc he
  refine hchanged.inv h ?_ (.inl hreceived) (fun r s' _ => h.small r s')
  intro s hs
  have hsee := h.sees p s
  by_cases ht : (σ.peer p).mDataChannels s = some i
  · refine hchanged.sees_self (hchanged.entry_self (by simpa using ht)) ?_
    rw [Peers.sees, entry_eq ht hc] at hsee
    exact hsees s _ hs hsee
  · -- the table does not hold the channel any more
    refine hchanged.sees_self ?_ hsee
    rw [Peers.entry, Peers.entry, setChannel_self, peer_setChannel_mDataChannels, peer_setChannel_channels]
    cases hj : (σ.peer p).mDataChannels s with
    | none => rfl
    | some j =>
        rw [Option.bind_some, Option.bind_some, Function.update_of_ne]
        rintro rfl
        exact ht hj

/-- What a channel becomes that is closed. -/
theorem Evolves.close (c : DataChannel) : Evolves c { c with mIsClosed := true } :=
  ⟨rfl, rfl, rfl, rfl, rfl, rfl, rfl, fun h => h, .inl, fun _ => rfl, fun _ => rfl,
    ⟨[], (List.append_nil _).symm⟩, fun _ hun => { hun with }⟩

theorem Inv.close (h : Inv cfg σ) (p : Role) (i : Nat) : Inv cfg (σ.close p i) := by
  unfold Peers.close
  split
  · exact h
  · rename_i c hc
    obtain rfl := (h.made p i c hc).id
    split
    · exact h
    · rename_i hopen
      have hopen : c.mIsClosed = false := by simpa using hopen
      split
      · -- a reset goes out on the stream
        rename_i stream htransport hstream
        refine h.transport hc (Evolves.close c) hstream hopen (Nat.zero_le _) rfl ?_
        intro d? hsees
        have := hsees.close hopen
        rwa [if_pos htransport] at this
      · rename_i hno
        refine h.setChannel hc (Evolves.close c) rfl ?_
        intro s d? hs hsees
        have htransport : ¬ c.mSctpTransport = true := fun htransport => hno s htransport hs
        have := hsees.close hopen
        rwa [if_neg htransport, List.append_nil] at this

/-- What a channel becomes that nothing holds any more. -/
theorem Evolves.destroy (c : DataChannel) (h : c.mIsClosed = true) :
    Evolves c { c with destroyed := true } :=
  ⟨rfl, rfl, rfl, rfl, rfl, rfl, rfl, fun h => h, .inl, fun h => h, fun _ => h,
    ⟨[], (List.append_nil _).symm⟩, fun _ hun => { hun with }⟩

/-- A closed channel is closed. -/
theorem close_closed {i : Nat} (hc : ((σ.close p i).peer p).channels i = some c) : c.mIsClosed = true := by
  unfold Peers.close at hc
  split at hc
  · rename_i hnone
    rw [hnone] at hc
    exact absurd hc (by simp)
  · rename_i c₀ hc₀
    split at hc
    · rename_i hclosed
      rw [hc₀] at hc
      exact Option.some.inj hc ▸ hclosed
    · split at hc
      · simp [closeStream_eq] at hc
        rw [← hc]
      · simp at hc
        rw [← hc]

theorem Inv.destroy (h : Inv cfg σ) (p : Role) (i : Nat) : Inv cfg (σ.destroy p i) := by
  have hclose := h.close p i
  unfold Peers.destroy
  simp only
  split
  · exact hclose
  · rename_i c hc
    exact hclose.setChannel hc (Evolves.destroy c (close_closed hc)) rfl fun _ _ _ hsees => hsees.destroy

/-! ## Sending -/

theorem Evolves.send (c : DataChannel) (h : c.destroyed = true → c.mIsClosed = true)
    (htransport : c.mSctpTransport = true) (x : Content) : Evolves c { c with sent := c.sent ++ [x] } := by
  refine ⟨rfl, rfl, rfl, rfl, rfl, rfl, rfl, fun h => h, .inl, fun h => h, h, ⟨[x], rfl⟩, ?_⟩
  intro _ hun
  rw [hun.transport] at htransport
  exact absurd htransport (by simp)

theorem remoteMaxMessageSize_le (cfg : Config) (p : Role) : cfg.remoteMaxMessageSize p ≤ cfg.limit := by
  have := cfg.positive p.other
  unfold Config.remoteMaxMessageSize Config.limit
  rw [if_pos this]
  cases p with
  | Active => exact Nat.le_of_eq (Nat.min_comm ..)
  | Passive => exact Nat.le_refl _

theorem limit_le (cfg : Config) (p : Role) : cfg.limit ≤ cfg.mMaxMessageSize p := by
  cases p with
  | Active => exact Nat.min_le_left ..
  | Passive => exact Nat.min_le_right ..

theorem Inv.outgoing (h : Inv cfg σ) {x : Content} (hx : x.1 = .String ∨ x.1 = .Binary)
    (hσ : σ.outgoing cfg p i x = .ok σ') : Inv cfg σ' := by
  unfold Peers.outgoing at hσ
  split at hσ
  · cases hσ
  · rename_i c hc
    split at hσ
    · cases hσ
    · rename_i hopen
      split at hσ
      · cases hσ
      · rename_i htransport
        split at hσ
        · cases hσ
        · rename_i stream hstream
          split at hσ
          · cases hσ
          · rename_i hsize
            have hopen : c.mIsClosed = false := by simpa using hopen
            have htransport : c.mSctpTransport = true := by simpa using htransport
            have hmade := h.made p i c hc
            obtain rfl := hmade.id
            obtain rfl := Except.ok.inj hσ
            have hsmall : x.2.length ≤ cfg.limit :=
              Nat.le_trans (Nat.not_lt.mp hsize) (remoteMaxMessageSize_le cfg p)
            refine h.transport hc (Evolves.send c hmade.destroyed htransport x) hstream hopen hsmall rfl ?_
            intro d? hsees
            exact hsees.send hopen htransport hx

/-! ## Opening -/

/-- What `Fits` is for. -/
theorem Fits.open_ok (h : Fits cfg c.mLabel c.mProtocol) :
    ∃ data, OutgoingDataChannel.open c.mLabel c.mProtocol c.mReliability = .ok data ∧
      data.length ≤ cfg.limit := by
  refine ⟨_, open_eq_ok.mpr ⟨h.1, h.2.1, rfl⟩, ?_⟩
  have := h.2.2
  simp only [List.length_append, header_length]
  omega

theorem setChannel_setChannel (σ : Peers) (p : Role) (i : Nat) (c c' : DataChannel) :
    (σ.setChannel p i c).setChannel p i c' = σ.setChannel p i c' := by
  simp [Peers.setChannel, Peers.setPeer, Peer.setChannel]

/-- The open message goes out. -/
theorem open_eq (h : Inv cfg σ) (hc : (σ.peer p).channels i = some c) (hout : c.outgoing = true)
    (hs : c.mStream = some s) :
    ∃ data, OutgoingDataChannel.open c.mLabel c.mProtocol c.mReliability = .ok data ∧
      data.length ≤ cfg.limit ∧
      σ.open cfg p i =
        ((σ.setChannel p i { c with mSctpTransport := true, opened := true }).transport p s
          (openMessage c data), none) := by
  have hmade := h.made p i c hc
  obtain rfl := hmade.id
  obtain ⟨data, hdata, hsmall⟩ := (hmade.fits hout).open_ok
  refine ⟨data, hdata, hsmall, ?_⟩
  have hle : ¬ cfg.mMaxMessageSize p < data.length := by
    have := limit_le cfg p
    omega
  rw [Peers.open, hc]
  simp only [hout, Bool.not_true, Bool.false_eq_true, if_false, hs, hdata, if_neg hle,
    setChannel_setChannel]
  rfl

theorem Evolves.open (c : DataChannel) (hout : c.outgoing = true) (hs : c.mStream = some s)
    (h : c.destroyed = true → c.mIsClosed = true) :
    Evolves c { c with mSctpTransport := true, opened := true } := by
  refine ⟨rfl, rfl, rfl, rfl, rfl, rfl, rfl, fun _ => rfl, fun _ => .inr hout, fun h => h, h,
    ⟨[], (List.append_nil _).symm⟩, ?_⟩
  intro hnone
  rw [hs] at hnone
  exact absurd hnone (by simp)

/-- A channel of `p` opens that has a stream, is not closed and was not opened before. -/
theorem Inv.open (h : Inv cfg σ) (hc : (σ.peer p).channels i = some c) (hout : c.outgoing = true)
    (hs : c.mStream = some s) (hopen : c.mIsClosed = false) (hopened : c.opened = false) :
    Inv cfg (σ.open cfg p i).1 := by
  have hmade := h.made p i c hc
  obtain ⟨data, hdata, hsmall, heq⟩ := open_eq h hc hout hs
  obtain rfl := hmade.id
  rw [heq]
  refine h.transport hc (Evolves.open c hout hs hmade.destroyed) hs hopen hsmall rfl ?_
  intro d? hsees
  -- the stream is one of `p`, as the channel is in its table
  have ht := h.listed_open hc hs hopen
  obtain ⟨c₀, hc₀, -, howner⟩ := h.entry p s c.id ht
  obtain rfl : c₀ = c := Option.some.inj (hc₀.symm.trans hc)
  have hp : owner s = p := howner.mp hout
  rw [decide_eq_true hp] at hsees ⊢
  exact Stage.open hsees hopened hopen hdata

/-- The task `openDataChannels` would open the channel on a stream for the first time. -/
def Ready (σ : Peers) (p : Role) (s : Nat) : Prop :=
  ∀ c ∈ σ.entry p s, c.mIsClosed = false → c.mIsOpen = false → c.opened = false

instance (σ : Peers) (p : Role) (s : Nat) : Decidable (Ready σ p s) := inferInstanceAs (Decidable (∀ _ ∈ _, _))

theorem Inv.openAt (h : Inv cfg σ) (hready : Ready σ p s) : Inv cfg (Peers.openAt cfg p σ s) := by
  unfold Peers.openAt
  split
  · exact h
  · rename_i i ht
    split
    · exact h
    · rename_i c hc
      split
      · exact h
      · rename_i hcond
        simp only [Bool.or_eq_true, not_or, Bool.not_eq_true] at hcond
        obtain ⟨⟨-, hopen⟩, hisOpen⟩ := hcond
        cases hout : c.outgoing with
        | true =>
            obtain ⟨c₀, hc₀, hs, -⟩ := h.entry p s i ht
            obtain rfl : c₀ = c := Option.some.inj (hc₀.symm.trans hc)
            exact h.open hc hout hs hopen (hready c₀ (entry_eq ht hc) hopen hisOpen)
        | false =>
            -- `IncomingDataChannel::open` ignores the call
            rw [Peers.open, hc]
            simp only [hout, Bool.not_false, if_true]
            exact h

/-- Opening the channel on one stream changes no other entry. -/
theorem openAt_entry (h : Inv cfg σ) {s' : Nat} (hs' : s' ≠ s) :
    (Peers.openAt cfg p σ s).entry p s' = σ.entry p s' := by
  unfold Peers.openAt
  split
  · rfl
  · rename_i i ht
    split
    · rfl
    · rename_i c hc
      split
      · rfl
      · cases hout : c.outgoing with
        | true =>
            obtain ⟨c₀, hc₀, hs, -⟩ := h.entry p s i ht
            obtain rfl : c₀ = c := Option.some.inj (hc₀.symm.trans hc)
            have hmade := h.made p i c₀ hc
            obtain ⟨data, -, -, heq⟩ := open_eq h hc hout hs
            rw [heq]
            have hchanged := Changed.transport hc (Evolves.open c₀ hout hs hmade.destroyed) hs
              (openMessage c₀ data)
            refine hchanged.entry h ?_ p
            rw [hs]
            exact fun he => hs' (Option.some.inj he).symm
        | false =>
            rw [Peers.open, hc]
            simp only [hout, Bool.not_false, if_true]

theorem Inv.openDataChannels (h : Inv cfg σ) (hready : ∀ s ∈ List.range (cfg.maxStream + 1), Ready σ p s) :
    Inv cfg (σ.openDataChannels cfg p) := by
  have hfold : ∀ (l : List Nat) (σ : Peers), l.Nodup → Inv cfg σ → (∀ s ∈ l, Ready σ p s) →
      Inv cfg (l.foldl (Peers.openAt cfg p) σ) := by
    intro l
    induction l with
    | nil => exact fun σ _ h _ => h
    | cons s l ih =>
        intro σ hnodup h hready
        obtain ⟨hnot, hnodup⟩ := List.nodup_cons.mp hnodup
        refine ih _ hnodup (h.openAt (hready s List.mem_cons_self)) ?_
        intro s' hs' c hentry
        rw [Option.mem_def, openAt_entry h (by rintro rfl; exact hnot hs')] at hentry
        exact hready s' (List.mem_cons_of_mem _ hs') c hentry
  exact hfold _ σ List.nodup_range h hready

end HxDatachannel.Dcep
