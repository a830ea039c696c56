import HxDatachannel.Dcep.Assign

/-!
# `Dcep.Forward` — messages that arrive

`forwardMessage` keeps the invariant, whichever message arrives next. `Good` is what a step has to meet, and
`Inv.step` joins the lemmas on the steps.
-/

namespace HxDatachannel.Dcep

open Link Lts

variable {cfg : Config} {σ σ' : Peers} {p : Role} {i s : Nat} {c c' d : DataChannel}

/-! ## Taking a message off a wire -/

@[simp] theorem take_peer (σ : Peers) (p : Role) (s k : Nat) : (σ.take p s k).peer = σ.peer := rfl

@[simp] theorem take_faults (σ : Peers) (p : Role) (s k : Nat) : (σ.take p s k).faults = σ.faults := rfl

@[simp] theorem take_self (σ : Peers) (p : Role) (s k : Nat) :
    (σ.take p s k).wire p s = (σ.wire p s).eraseIdx k := setWire_self ..

@[simp] theorem take_other (σ : Peers) (p : Role) (s k s' : Nat) :
    (σ.take p s k).wire p.other s' = σ.wire p.other s' := setWire_other ..

@[simp] theorem take_other' (σ : Peers) (p : Role) (s k s' : Nat) :
    (σ.take p.other s k).wire p s' = σ.wire p s' := setWire_other' ..

theorem take_stream (σ : Peers) (p r : Role) {s s' : Nat} (k : Nat) (h : s' ≠ s) :
    (σ.take p s k).wire r s' = σ.wire r s' := setWire_stream σ p r _ h

/-- What the invariant asks for when only the messages on one stream change. -/
theorem Inv.rewire (h : Inv cfg σ) (hpeer : σ'.peer = σ.peer) (hfaults : σ'.faults = σ.faults)
    (hwire : ∀ r s', s' ≠ s → σ'.wire r s' = σ.wire r s') (hsees : σ'.sees p s)
    (hsmall : ∀ r, ∀ m ∈ σ'.wire r s, m.data.length ≤ cfg.limit) : Inv cfg σ' := by
  refine ⟨?_, ?_, ?_, ?_, ?_, ?_, ?_, hfaults.trans h.faults⟩
  · rw [hpeer]
    exact h.made
  · rw [hpeer]
    exact h.entry
  · rw [hpeer]
    exact h.listed
  · refine forall_sees (p := p) ?_
    intro s'
    by_cases hs : s' = s
    · exact hs ▸ hsees
    · have := h.sees p s'
      unfold Peers.sees Peers.entry Peers.Claimed at this ⊢
      rwa [hpeer, hwire _ _ hs, hwire _ _ hs]
  · rw [hpeer]
    exact h.linked
  · rw [hpeer]
    exact h.unique
  · intro r s'
    by_cases hs : s' = s
    · exact hs ▸ hsmall r
    · rw [hwire r s' hs]
      exact h.small r s'

theorem Sees.of_eq {claimed : Nat → Prop} {own : Bool} {c? d? : Option DataChannel}
    {wc wd wc' wd' : List Message} (h : Sees claimed own c? d? wc wd) (hc : wc' = wc) (hd : wd' = wd) :
    Sees claimed own c? d? wc' wd' := by
  rw [hc, hd]
  exact h

/-- What was taken off a wire leaves small messages behind. -/
theorem erase_small (h : Inv cfg σ) (k : Nat) (r : Role) (s' : Nat) :
    ∀ m ∈ (σ.take p s k).wire r s', m.data.length ≤ cfg.limit := by
  intro m hm
  rcases p.eq_or_other r with rfl | rfl
  · by_cases hs : s' = s
    · subst hs
      rw [take_self] at hm
      exact h.small _ _ m (List.mem_of_mem_eraseIdx hm)
    · rw [take_stream σ r r _ hs] at hm
      exact h.small _ _ m hm
  · rw [take_other] at hm
    exact h.small _ _ m hm

theorem Inv.lose (h : Inv cfg σ) {k : Nat} {m : Message} (hm : (σ.wire p.other s)[k]? = some m)
    (hl : m.lossy = true) : Inv cfg (σ.take p.other s k) := by
  refine h.rewire (p := p) (s := s) rfl rfl ?_ ?_ (fun r => erase_small h k r s)
  · intro r s' hs
    exact take_stream σ p.other r _ hs
  · exact ((h.sees p s).lose hm hl).of_eq (take_other' ..) (take_self ..)

/-- A message that passes both transports is not cut. -/
theorem truncate_eq {m : Message} (h : m.data.length ≤ cfg.limit) (p : Role) :
    m.truncate (cfg.mMaxMessageSize p) = m := by
  rw [Message.truncate, List.take_of_length_le (Nat.le_trans h (limit_le cfg p))]

/-- A message for a channel goes to the channel. -/
theorem forwardMessage_known (σ : Peers) (ht : (σ.peer p).mDataChannels s = some i) {m : Message}
    (hopen : m.isOpenMessage = false) (hreset : m.isReset = false) :
    σ.forwardMessage p s m = σ.incoming p i m := by
  rw [Peers.forwardMessage, hopen, ht]
  simp [hreset]

/-- A reset takes the channel out of the table first. -/
theorem forwardMessage_reset (σ : Peers) (ht : (σ.peer p).mDataChannels s = some i) (j : Nat) :
    σ.forwardMessage p s (reset j) =
      (σ.setPeer p { σ.peer p with
        mDataChannels := Function.update (σ.peer p).mDataChannels s none }).incoming p i (reset j) := by
  have hopen : (reset j).isOpenMessage = false := rfl
  rw [Peers.forwardMessage, hopen, ht]
  simp [reset_isReset]

/-- A closed channel ignores what it gets. -/
theorem incoming_closed (σ : Peers) (hc : (σ.peer p).channels i = some c) (hclosed : c.mIsClosed = true) (m : Message) :
    σ.incoming p i m = σ := by
  rw [Peers.incoming, hc]
  simp [hclosed]

theorem incoming_content (σ : Peers) (hc : (σ.peer p).channels i = some c) (hclosed : c.mIsClosed = false)
    (hdest : c.destroyed = false) {m : Message} {x : Content} (hx : m.content? = some x) :
    σ.incoming p i m = σ.setChannel p i { c with received := c.received ++ [x] } := by
  have hsome : m.content?.isSome = true := by rw [hx]; rfl
  have heq := content?_eq hsome
  rw [hx] at heq
  obtain rfl := Option.some.inj heq
  rw [Peers.incoming, hc]
  rcases content?_type hsome with ht | ht <;> simp [hclosed, hdest, ht]

theorem incoming_ack (σ : Peers) (hc : (σ.peer p).channels i = some c) (hclosed : c.mIsClosed = false)
    (hdest : c.destroyed = false) {m : Message} (hm : m.isAck) :
    σ.incoming p i m = σ.setChannel p i { c with mIsOpen := true } := by
  rw [Peers.incoming, hc]
  simp [hclosed, hdest, hm.1, hm.2, MESSAGE_ACK, MESSAGE_OPEN]

/-- A channel that is not closed closes when its stream is reset, and resets it in turn. -/
theorem incoming_reset (σ : Peers) (hc : (σ.peer p).channels i = some c) (hclosed : c.mIsClosed = false)
    (hdest : c.destroyed = false) (htransport : c.mSctpTransport = true) (hs : c.mStream = some s) (j : Nat) :
    σ.incoming p i (reset j) =
      (σ.setChannel p i { c with mIsClosed := true }).transport p s (reset i) := by
  have hclose : σ.close p i = (σ.setChannel p i { c with mIsClosed := true }).transport p s (reset i) := by
    rw [Peers.close, hc]
    simp only [hclosed, Bool.false_eq_true, if_false, htransport, hs, closeStream_eq]
  rw [← hclose, Peers.incoming, hc]
  simp only [hdest, hclosed, Bool.or_self, Bool.false_eq_true, if_false]
  rfl

/-! ## What arrives -/

theorem entry_eq_some (h : Inv cfg σ) (he : σ.entry p s = some c) :
    (σ.peer p).mDataChannels s = some c.id ∧ (σ.peer p).channels c.id = some c ∧ c.mStream = some s ∧
      (c.outgoing = true ↔ owner s = p) := by
  obtain ⟨i, ht, hc⟩ := Option.bind_eq_some_iff.mp he
  obtain ⟨c₀, hc₀, hs, hout⟩ := h.entry p s i ht
  obtain rfl : c₀ = c := Option.some.inj (hc₀.symm.trans hc)
  obtain rfl := (h.made p i c₀ hc).id
  exact ⟨ht, hc, hs, hout⟩

/-- A table holds only channels that there are. -/
theorem entry_eq_none (h : Inv cfg σ) (he : σ.entry p s = none) : (σ.peer p).mDataChannels s = none := by
  cases ht : (σ.peer p).mDataChannels s with
  | none => rfl
  | some i =>
      obtain ⟨c, hc, -⟩ := h.entry p s i ht
      rw [entry_eq ht hc] at he
      exact absurd he (by simp)

/-- A channel gets a message and keeps its place. -/
theorem Inv.receive (h : Inv cfg σ) (he : σ.entry p s = some c) (hev : Evolves c c') (k : Nat)
    (hrecv : c'.received = c.received ∨ ∃ j d, (σ.peer p.other).channels j = some d ∧
      Partners c.outgoing c d ∧ Conveys c.mReliability c'.received d.sent)
    (hsees : Sees (σ.Claimed (owner s)) (owner s = p) (some c') (σ.entry p.other s) (σ.wire p s)
      ((σ.wire p.other s).eraseIdx k)) :
    Inv cfg ((σ.take p.other s k).setChannel p c.id c') := by
  obtain ⟨ht, hc, hs, -⟩ := entry_eq_some h he
  have hchanged : Changed σ ((σ.take p.other s k).setChannel p c.id c')
      p c.id c c' := by
    refine ⟨hc, hev, by simp, by simp, fun _ => .inl (by simp), by simp, ?_, rfl⟩
    intro r s' hs'
    exact take_stream σ p.other r _ (by rintro rfl; exact hs' hs)
  refine hchanged.inv h ?_ hrecv (fun r s' _ => erase_small h k r s')
  intro s' hs'
  obtain rfl : s = s' := Option.some.inj (hs.symm.trans hs')
  exact hchanged.sees_self (hchanged.entry_self (by simpa using ht))
    (hsees.of_eq (take_other' ..) (take_self ..))

theorem Evolves.receive (c : DataChannel) (h : c.destroyed = true → c.mIsClosed = true)
    (hs : c.mStream = some s) (received : List Content) (isOpen : Bool) :
    Evolves c { c with received := received, mIsOpen := isOpen } := by
  refine ⟨rfl, rfl, rfl, rfl, rfl, rfl, rfl, fun h => h, .inl, fun h => h, h,
    ⟨[], (List.append_nil _).symm⟩, ?_⟩
  intro hnone
  rw [hs] at hnone
  exact absurd hnone (by simp)

/-- The channel of a stream that is reset leaves the table. -/
theorem Inv.unregister (h : Inv cfg σ) (he : σ.entry p s = some c) (hclosed : c.mIsClosed = true) (k : Nat)
    (hsees : Sees (σ.Claimed (owner s)) (owner s = p) none (σ.entry p.other s) (σ.wire p s)
      ((σ.wire p.other s).eraseIdx k)) :
    Inv cfg ((σ.take p.other s k).setPeer p { σ.peer p with
      mDataChannels := Function.update (σ.peer p).mDataChannels s none }) := by
  obtain ⟨ht, hc, hs, -⟩ := entry_eq_some h he
  have hmade := h.made p c.id c hc
  have hev : Evolves c c := Evolves.receive c hmade.destroyed hs c.received c.mIsOpen
  have hchanged : Changed σ ((σ.take p.other s k).setPeer p { σ.peer p with
      mDataChannels := Function.update (σ.peer p).mDataChannels s none }) p c.id c c := by
    refine ⟨hc, hev, ?_, by simp, ?_, by simp, ?_, rfl⟩
    · rw [setPeer_self, ← hc, Function.update_eq_self]
    · intro s'
      rw [setPeer_self]
      by_cases hs' : s' = s
      · subst hs'
        exact .inr ⟨Function.update_self .., ht, hclosed⟩
      · exact .inl (Function.update_of_ne hs' ..)
    · intro r s' hs'
      exact take_stream σ p.other r _ (by rintro rfl; exact hs' hs)
  refine hchanged.inv h ?_ (.inl rfl) (fun r s' _ => erase_small h k r s')
  intro s' hs'
  obtain rfl : s = s' := Option.some.inj (hs.symm.trans hs')
  refine hchanged.sees_self (entry_none ?_) (hsees.of_eq (take_other' ..) (take_self ..))
  rw [setPeer_self]
  exact Function.update_self ..

/-- A channel that is not closed is closed by the reset of its stream, and answers with a reset. -/
theorem Inv.remoteClose (h : Inv cfg σ) (he : σ.entry p s = some c) (hclosed : c.mIsClosed = false)
    (k j : Nat)
    (htransport : c.mSctpTransport = true)
    (hsees : Sees (σ.Claimed (owner s)) (owner s = p) none (σ.entry p.other s)
      (σ.wire p s ++ [reset c.id]) ((σ.wire p.other s).eraseIdx k)) :
    Inv cfg (((σ.take p.other s k).setPeer p { σ.peer p with
      mDataChannels := Function.update (σ.peer p).mDataChannels s none }).incoming p c.id (reset j)) := by
  obtain ⟨ht, hc, hs, -⟩ := entry_eq_some h he
  have hmade := h.made p c.id c hc
  have hdest : c.destroyed = false := by
    cases hd : c.destroyed with
    | false => rfl
    | true =>
        rw [hmade.destroyed hd] at hclosed
        exact absurd hclosed (by simp)
  generalize hσ₁ : (σ.take p.other s k).setPeer p { σ.peer p with
      mDataChannels := Function.update (σ.peer p).mDataChannels s none } = σ₁
  have hc₁ : (σ₁.peer p).channels c.id = some c := by rw [← hσ₁, setPeer_self, hc]
  have hincoming := incoming_reset σ₁ hc₁ hclosed hdest htransport hs j
  have hwire : ∀ r s', σ₁.wire r s' = (σ.take p.other s k).wire r s' := by
    intro r s'
    rw [← hσ₁, setPeer_wire]
  rw [hincoming]
  have hchanged : Changed σ ((σ₁.setChannel p c.id { c with mIsClosed := true }).transport p s (reset c.id))
      p c.id c { c with mIsClosed := true } := by
    refine ⟨hc, Evolves.close c, ?_, ?_, ?_, ?_, ?_, ?_⟩
    · simp [← hσ₁]
    · simp [← hσ₁]
    · intro s'
      rw [transport_peer, setChannel_self, peer_setChannel_mDataChannels, ← hσ₁, setPeer_self]
      by_cases hs' : s' = s
      · subst hs'
        exact .inr ⟨Function.update_self .., ht, rfl⟩
      · exact .inl (Function.update_of_ne hs' ..)
    · simp [← hσ₁]
    · intro r s' hs'
      have hne : s' ≠ s := by
        rintro rfl
        exact hs' hs
      rw [transport_stream _ _ _ _ hne, setChannel_wire, hwire, take_stream σ p.other r _ hne]
    · simp [← hσ₁]
  refine hchanged.inv h ?_ (.inl rfl) ?_
  · intro s' hs'
    obtain rfl : s = s' := Option.some.inj (hs.symm.trans hs')
    refine hchanged.sees_self (entry_none ?_) (hsees.of_eq ?_ ?_)
    · rw [transport_peer, setChannel_self, peer_setChannel_mDataChannels, ← hσ₁, setPeer_self]
      exact Function.update_self ..
    · rw [transport_self, setChannel_wire, hwire, take_other']
    · rw [transport_other, setChannel_wire, hwire, take_self]
  · intro r s' _
    refine transport_small ?_ (Nat.zero_le _) r s'
    intro r s'
    rw [setChannel_wire, hwire]
    exact erase_small h k r s'

/-- The message that opens a channel is an open message. -/
theorem openMessage_isOpen {data : Bytes} {r : Reliability} {l q : Bytes}
    (h : OutgoingDataChannel.open l q r = .ok data) (d : DataChannel) :
    (openMessage d data).isOpenMessage = true := by
  obtain ⟨-, -, rfl⟩ := open_eq_ok.mp h
  rfl

/-- What an incoming channel becomes with the open message of `d`. -/
def accepted (d : DataChannel) (i s : Nat) : DataChannel :=
  { IncomingDataChannel.make i s with
    mLabel := d.mLabel, mProtocol := d.mProtocol, mReliability := d.mReliability, mIsOpen := true,
    partner := some d.id }

/-- The open message of `d` on a stream that is not used registers a new channel and is answered. -/
theorem forwardMessage_open (σ : Peers) (ht : (σ.peer p).mDataChannels s = none) (hs : s % 2 = p.other.parity)
    (hrel : d.mReliability.maxPacketLifeTime = none ∨ d.mReliability.maxRetransmits = none) {data : Bytes}
    (hdata : OutgoingDataChannel.open d.mLabel d.mProtocol d.mReliability = .ok data) :
    σ.forwardMessage p s (openMessage d data) =
      (σ.setPeer p ((σ.peer p).registered s (accepted d (σ.peer p).count s))).transport p s
        (ackMessage (σ.peer p).count) := by
  have hread : IncomingDataChannel.processOpenMessage data = .ok (d.mLabel, d.mProtocol, d.mReliability) := by
    obtain ⟨hl, hp, rfl⟩ := open_eq_ok.mp hdata
    rw [List.append_assoc]
    exact processOpenMessage_whole hrel hl hp
  have hhead : data.head? = some MESSAGE_OPEN := by
    obtain ⟨-, -, rfl⟩ := open_eq_ok.mp hdata
    rfl
  rw [Peers.forwardMessage, openMessage_isOpen hdata, ht]
  simp only [if_true, hs, ne_eq, not_true_eq_false, if_false]
  generalize hP : (σ.peer p).registered s (IncomingDataChannel.make (σ.peer p).count s) = P
  have hc : ((σ.setPeer p P).peer p).channels (σ.peer p).count =
      some (IncomingDataChannel.make (σ.peer p).count s) := by
    rw [setPeer_self, ← hP]
    exact Function.update_self ..
  rw [Peers.incoming, hc]
  simp only [IncomingDataChannel.make, Bool.or_self, Bool.false_eq_true, if_false, openMessage, hhead, if_true]
  rw [Peers.processOpenMessage, hc]
  simp only [IncomingDataChannel.make, hread]
  have hset : (σ.setPeer p P).setChannel p (σ.peer p).count (accepted d (σ.peer p).count s) =
      σ.setPeer p ((σ.peer p).registered s (accepted d (σ.peer p).count s)) := by
    rw [Peers.setChannel, setPeer_self, setPeer_setPeer, ← hP]
    simp [Peer.registered, Peer.setChannel]
  rw [← hset]
  rfl

/-- A message opens a channel. -/
theorem Inv.accept (h : Inv cfg σ) (he : σ.entry p s = none) (hd : σ.entry p.other s = some d)
    (hown : owner s ≠ p) (k : Nat) (hclaim : ¬ σ.Claimed p.other d.id) (hopened : d.opened = true)
    (hreceived : d.received = []) {data : Bytes}
    (hdata : OutgoingDataChannel.open d.mLabel d.mProtocol d.mReliability = .ok data)
    (hnext : ∀ (claimed' : Nat → Prop) (b : DataChannel), Agree d b → b.mSctpTransport = true →
      b.mIsOpen = true → b.mIsClosed = false → b.sent = [] → b.received = [] →
      Sees claimed' (owner s = p) (some b) (some d) (σ.wire p s ++ [ackMessage b.id])
        ((σ.wire p.other s).eraseIdx k)) :
    Inv cfg ((σ.take p.other s k).forwardMessage p s
      (openMessage d data)) := by
  obtain ⟨htd, hcd, hsd, -⟩ := entry_eq_some h hd
  have hmade := h.made p.other d.id d hcd
  have howner : owner s = p.other := (p.eq_or_other (owner s)).resolve_left hown
  have ht := entry_eq_none h he
  have hagree : ∀ i, Agree d (accepted d i s) := fun i => ⟨rfl, rfl, rfl, hsd.symm, rfl⟩
  rw [forwardMessage_open (σ.take p.other s k) ht ((owner_eq_iff s p.other).mp howner) hmade.reliability hdata]
  rw [take_peer]
  generalize hi : (σ.peer p).count = i
  have hplaced : Placed cfg σ (((σ.take p.other s k).setPeer p
      ((σ.peer p).registered s (accepted d i s))).transport p s (ackMessage i)) p i (accepted d i s) := by
    subst hi
    refine ⟨?_, ?_, ?_, ?_, ?_, ?_, by simp, ?_, rfl, ?_⟩
    · intro c hc
      exact absurd (h.made p _ c hc).lt (Nat.lt_irrefl _)
    · rw [transport_peer, setPeer_self]
      exact ⟨rfl, Nat.lt_succ_self _, nofun, hmade.reliability, nofun, fun _ => rfl, nofun, nofun, nofun⟩
    · rw [transport_peer, setPeer_self]
      rfl
    · rw [transport_peer, setPeer_self]
      exact Nat.le_succ _
    · intro s' hs'
      obtain rfl : s = s' := Option.some.inj hs'
      rw [transport_peer, setPeer_self]
      exact ⟨ht, Function.update_self .., iff_of_false (by simp [accepted, IncomingDataChannel.make]) hown⟩
    · intro s' hs'
      rw [transport_peer, setPeer_self]
      exact Function.update_of_ne (fun he => hs' (congrArg some he.symm)) ..
    · intro r s' hs'
      have hne : s' ≠ s := fun he => hs' (congrArg some he.symm)
      rw [transport_stream _ _ _ _ hne, setPeer_wire, take_stream σ p.other r _ hne]
    · intro j hj
      obtain rfl : d.id = j := Option.some.inj hj
      refine ⟨hclaim, d, hcd, hopened, hagree _, Conveyed.nil _, ?_⟩
      rw [hreceived]
      exact Conveyed.nil _
  refine hplaced.inv h ?_ ?_
  · intro s' hs'
    obtain rfl : s = s' := Option.some.inj hs'
    have hentry : ∀ Q : Peer,
        (((σ.take p.other s k).setPeer p Q).transport p s (ackMessage i)).entry p.other s = some d := by
      intro Q
      rw [← hd, Peers.entry, Peers.entry, transport_peer, setPeer_other, take_peer]
    unfold Peers.sees
    rw [entry_eq (hplaced.taken s rfl).2.1 hplaced.after, hentry]
    refine (hnext _ _ (hagree i) rfl rfl rfl rfl rfl).of_eq ?_ ?_
    · rw [transport_self, setPeer_wire, take_other']
      rfl
    · rw [transport_other, setPeer_wire, take_self]
  · intro r s' _
    refine transport_small ?_ ?_ r s'
    · intro r s'
      rw [setPeer_wire]
      exact erase_small h k r s'
    · -- the answer is smaller than any open message
      have hd := (hmade.fits (hmade.opened hopened)).2.2
      simp only [ackMessage, List.length_singleton, sizeofOpenMessage] at hd ⊢
      omega

/-- **Arrival.** Whatever message arrives next at either peer, the invariant holds behind it. -/
theorem Inv.deliver (h : Inv cfg σ) {k : Nat} {m : Message} (hm : (σ.wire p.other s)[k]? = some m)
    (hk : arrives Message.isReset Message.unordered (σ.wire p.other s) k = true) :
    Inv cfg ((σ.take p.other s k).forwardMessage p s
      (m.truncate (cfg.mMaxMessageSize p))) := by
  rw [truncate_eq (h.small p.other s m (List.mem_of_getElem? hm)) p]
  have harrival := Sees.arrival (h.sees p s) hm hk
  generalize he : σ.entry p s = c? at harrival
  have hdest : ∀ {c}, σ.entry p s = some c → c.mIsClosed = false → c.destroyed = false := by
    intro c he hclosed
    obtain ⟨-, hc, -⟩ := entry_eq_some h he
    cases hd : c.destroyed with
    | false => rfl
    | true =>
        rw [(h.made p c.id c hc).destroyed hd] at hclosed
        exact absurd hclosed (by simp)
  have hpartner : ∀ {c d : DataChannel}, σ.entry p s = some c → σ.entry p.other s = some d →
      Partners (owner s = p) c d → ∃ j d, (σ.peer p.other).channels j = some d ∧
        Partners c.outgoing c d ∧ σ.entry p.other s = some d := by
    intro c d he hd hp
    obtain ⟨-, -, -, hout⟩ := entry_eq_some h he
    obtain ⟨-, hcd, -⟩ := entry_eq_some h hd
    refine ⟨d.id, d, hcd, ?_, hd⟩
    have heq : c.outgoing = decide (owner s = p) := by
      rw [Bool.eq_iff_iff, decide_eq_true_eq]
      exact hout
    rw [heq]
    exact hp
  cases harrival with
  | opens hown hd hclaim hopened hreceived hdata next =>
      have hown : owner s ≠ p := of_decide_eq_false hown
      have howner : owner s = p.other := (p.eq_or_other (owner s)).resolve_left hown
      rw [howner] at hclaim
      refine h.accept he hd hown k hclaim hopened hreceived hdata ?_
      rw [← hd]
      exact next
  | @ignored c _ hclosed hplain next =>
      obtain ⟨ht, hc, hs, -⟩ := entry_eq_some h he
      rw [forwardMessage_known (σ.take p.other s k) ht hplain.not_open hplain.not_reset, incoming_closed (σ.take p.other s k) hc hclosed]
      refine h.rewire (p := p) (s := s) rfl rfl ?_ ?_ (fun r => erase_small h k r s)
      · exact fun r s' hne => take_stream σ p.other r _ hne
      · unfold Peers.sees Peers.entry
        rw [take_peer]
        refine Sees.of_eq ?_ (take_other' ..) (take_self ..)
        rw [← Peers.entry, he]
        exact next
  | @content c d _ x hclosed hx hd hpart hconv next =>
      obtain ⟨ht, hc, hs, -⟩ := entry_eq_some h he
      have hplain : m.Plain := .inl (by rw [hx]; rfl)
      rw [forwardMessage_known (σ.take p.other s k) ht hplain.not_open hplain.not_reset,
        incoming_content (σ.take p.other s k) hc hclosed (hdest he hclosed) hx]
      have hev := Evolves.receive c (h.made p c.id c hc).destroyed hs (c.received ++ [x]) c.mIsOpen
      refine h.receive he hev k (.inr ?_) next
      obtain ⟨j, d', hd', hpart', hentry⟩ := hpartner he hd hpart
      obtain rfl : d = d' := Option.some.inj (hd.symm.trans hentry)
      exact ⟨j, d, hd', hpart', hconv⟩
  | @ack c _ hclosed hack next =>
      obtain ⟨ht, hc, hs, -⟩ := entry_eq_some h he
      have hopen : m.isOpenMessage = false := by
        simp [Message.isOpenMessage, hack.2, MESSAGE_ACK, MESSAGE_OPEN]
      have hreset : m.isReset = false := by simp [Message.isReset, hack.1]
      rw [forwardMessage_known (σ.take p.other s k) ht hopen hreset, incoming_ack (σ.take p.other s k) hc hclosed (hdest he hclosed) hack]
      exact h.receive he (Evolves.receive c (h.made p c.id c hc).destroyed hs c.received true) k (.inl rfl) next
  | @reset c j hclosed next =>
      obtain ⟨ht, hc, hs, -⟩ := entry_eq_some h he
      rw [forwardMessage_reset (σ.take p.other s k) ht, incoming_closed _ (by rw [setPeer_self]; exact hc) hclosed]
      exact h.unregister he hclosed k next
  | @remoteClose c d j hclosed hd hpart hdclosed htransport hflows next =>
      obtain ⟨ht, hc, hs, -⟩ := entry_eq_some h he
      rw [forwardMessage_reset (σ.take p.other s k) ht]
      exact h.remoteClose he hclosed k j htransport next

/-! ## Runs -/

/-- What a step has to meet: the open message of a new channel passes both transports, and
    `openDataChannels` finds no channel whose open message is on the way already. -/
def Good (cfg : Config) (σ : Peers) : Act → Prop
  | .emplaceDataChannel _ label protocol _ => Fits cfg label protocol
  | .openDataChannels p                    => ∀ s ∈ List.range (cfg.maxStream + 1), Ready σ p s
  | _                                      => True

instance (cfg : Config) (label protocol : Bytes) : Decidable (Fits cfg label protocol) :=
  inferInstanceAs (Decidable (_ ∧ _ ∧ _))

instance (cfg : Config) (σ : Peers) : ∀ a, Decidable (Good cfg σ a)
  | .emplaceDataChannel _ label protocol _ => inferInstanceAs (Decidable (Fits cfg label protocol))
  | .openDataChannels p => inferInstanceAs (Decidable (∀ s ∈ List.range (cfg.maxStream + 1), Ready σ p s))
  | .connected _ | .send .. | .close .. | .destroy .. | .deliver .. | .lose .. => .isTrue trivial

theorem Inv.init (cfg : Config) : Inv cfg Peers.init := by
  have hchannels : ∀ p i c, ¬ (Peers.init.peer p).channels i = some c := by
    intro _ _ _ h
    cases h
  have htable : ∀ p s i, ¬ (Peers.init.peer p).mDataChannels s = some i := by
    intro _ _ _ h
    cases h
  refine ⟨fun p i c hc => absurd hc (hchannels p i c), fun p s i hi => absurd hi (htable p s i),
    fun p i c _ hc => absurd hc (hchannels p i c), ?_,
    fun p j b _ hb => absurd hb (hchannels p.other j b),
    fun p j b _ _ _ hb => absurd hb (hchannels p j b), ?_, rfl⟩
  · refine forall_sees (p := .Active) ?_
    intro s
    unfold Peers.sees Sees
    split
    · exact Stage.pending (List.append_nil []).symm rfl rfl
    · exact Stage.pending (List.append_nil []).symm rfl rfl
  · intro p s m hm
    exact absurd hm List.not_mem_nil

/-- **The step lemma.** -/
theorem Inv.step (h : Inv cfg σ) {a : Act} (hgood : Good cfg σ a) (hstep : Dcep.step cfg σ a = some σ') :
    Inv cfg σ' := by
  cases a with
  | emplaceDataChannel p label protocol reliability =>
      obtain rfl := Option.some.inj hstep
      exact h.emplaceDataChannel hgood
  | connected p =>
      obtain ⟨-, hstep⟩ := Option.ite_none_left_eq_some.mp hstep
      obtain rfl := Option.some.inj hstep
      exact h.connected
  | openDataChannels p =>
      obtain ⟨-, hstep⟩ := Option.ite_none_right_eq_some.mp hstep
      obtain rfl := Option.some.inj hstep
      have hself : Inv cfg (σ.setPeer p (σ.peer p)) := by
        rw [setPeer_eq]
        exact h
      have hopening : Inv cfg (σ.setPeer p { σ.peer p with opening := false }) := hself.setPeer rfl rfl rfl
      refine hopening.openDataChannels ?_
      intro s hs c hentry
      refine hgood s hs c ?_
      rw [Option.mem_def] at hentry ⊢
      rw [← hentry, Peers.entry, Peers.entry, setPeer_self]
  | send p i text data =>
      simp only [Dcep.step] at hstep
      split at hstep
      · obtain rfl := Option.some.inj hstep
        exact h
      · rename_i σ₁ hσ₁
        obtain rfl := Option.some.inj hstep
        refine h.outgoing ?_ hσ₁
        cases text with
        | true => exact .inl rfl
        | false => exact .inr rfl
  | close p i =>
      obtain rfl := Option.some.inj hstep
      exact h.close p i
  | destroy p i =>
      obtain rfl := Option.some.inj hstep
      exact h.destroy p i
  | deliver p s k =>
      simp only [Dcep.step] at hstep
      split at hstep
      · exact absurd hstep (by simp)
      · rename_i m hm
        obtain ⟨hcond, hstep⟩ := Option.ite_none_right_eq_some.mp hstep
        obtain rfl := Option.some.inj hstep
        exact h.deliver hm (Bool.and_eq_true_iff.mp hcond).2
  | lose p s k =>
      simp only [Dcep.step] at hstep
      split at hstep
      · exact absurd hstep (by simp)
      · rename_i m hm
        obtain ⟨hl, hstep⟩ := Option.ite_none_right_eq_some.mp hstep
        obtain rfl := Option.some.inj hstep
        exact h.lose hm hl

/-- **The run lemma.** -/
theorem Inv.run (h : Path (Dcep.step cfg) (Good cfg) Peers.init σ) : Inv cfg σ :=
  h.invariant (fun _ _ _ hinv hgood hstep => hinv.step hgood hstep) (Inv.init cfg)

end HxDatachannel.Dcep
