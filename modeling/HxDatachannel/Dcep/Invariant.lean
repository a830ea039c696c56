import HxDatachannel.Dcep.Stage

/-!
# `Dcep.Invariant` — the invariant of the two peers

`Inv` says that the tables, the channels and the streams of the two peers fit together: every stream is at
a stage, every incoming channel belongs to one outgoing channel of the other peer, and what either of the
two received is what the other one sent. `Inv.update` is the rule for a step that changes one channel.
-/

namespace HxDatachannel.Dcep

open Link

/-! ## Reading updates -/

@[simp] theorem Role.other_other (p : Role) : p.other.other = p := by cases p <;> rfl

theorem Role.other_ne (p : Role) : p.other ≠ p := by cases p <;> decide

theorem Role.eq_or_other (p r : Role) : r = p ∨ r = p.other := by cases p <;> cases r <;> decide

@[simp] theorem setPeer_self (σ : Peers) (p : Role) (P : Peer) : (σ.setPeer p P).peer p = P :=
  Function.update_self ..

@[simp] theorem setPeer_other (σ : Peers) (p : Role) (P : Peer) :
    (σ.setPeer p P).peer p.other = σ.peer p.other :=
  Function.update_of_ne p.other_ne ..

@[simp] theorem setPeer_wire (σ : Peers) (p : Role) (P : Peer) : (σ.setPeer p P).wire = σ.wire := rfl
@[simp] theorem setPeer_faults (σ : Peers) (p : Role) (P : Peer) : (σ.setPeer p P).faults = σ.faults := rfl

@[simp] theorem setChannel_self (σ : Peers) (p : Role) (i : Nat) (c : DataChannel) :
    (σ.setChannel p i c).peer p = (σ.peer p).setChannel i c := setPeer_self ..

@[simp] theorem setChannel_other (σ : Peers) (p : Role) (i : Nat) (c : DataChannel) :
    (σ.setChannel p i c).peer p.other = σ.peer p.other := setPeer_other ..

@[simp] theorem setChannel_wire (σ : Peers) (p : Role) (i : Nat) (c : DataChannel) :
    (σ.setChannel p i c).wire = σ.wire := rfl

@[simp] theorem setChannel_faults (σ : Peers) (p : Role) (i : Nat) (c : DataChannel) :
    (σ.setChannel p i c).faults = σ.faults := rfl

@[simp] theorem peer_setChannel_channels (P : Peer) (i : Nat) (c : DataChannel) :
    (P.setChannel i c).channels = Function.update P.channels i (some c) := rfl

@[simp] theorem peer_setChannel_count (P : Peer) (i : Nat) (c : DataChannel) :
    (P.setChannel i c).count = P.count := rfl

@[simp] theorem peer_setChannel_mDataChannels (P : Peer) (i : Nat) (c : DataChannel) :
    (P.setChannel i c).mDataChannels = P.mDataChannels := rfl

@[simp] theorem setWire_peer (σ : Peers) (p : Role) (s : Nat) (w : List Message) :
    (σ.setWire p s w).peer = σ.peer := rfl

@[simp] theorem setWire_faults (σ : Peers) (p : Role) (s : Nat) (w : List Message) :
    (σ.setWire p s w).faults = σ.faults := rfl

@[simp] theorem setWire_self (σ : Peers) (p : Role) (s : Nat) (w : List Message) :
    (σ.setWire p s w).wire p s = w := by
  simp [Peers.setWire]

@[simp] theorem setWire_other (σ : Peers) (p : Role) (s : Nat) (w : List Message) (s' : Nat) :
    (σ.setWire p s w).wire p.other s' = σ.wire p.other s' := by
  simp [Peers.setWire, Function.update_of_ne p.other_ne]

@[simp] theorem setWire_other' (σ : Peers) (p : Role) (s : Nat) (w : List Message) (s' : Nat) :
    (σ.setWire p.other s w).wire p s' = σ.wire p s' := by
  simp [Peers.setWire, Function.update_of_ne p.other_ne.symm]

theorem setWire_stream (σ : Peers) (p r : Role) {s s' : Nat} (w : List Message) (h : s' ≠ s) :
    (σ.setWire p s w).wire r s' = σ.wire r s' := by
  rcases p.eq_or_other r with rfl | rfl
  · simp [Peers.setWire, Function.update_of_ne h]
  · exact setWire_other ..

/-! ## What the invariant speaks about -/

/-- The peer that picks a stream. -/
def owner (stream : Nat) : Role := if stream % 2 = 0 then .Active else .Passive

theorem owner_eq_iff (stream : Nat) (p : Role) : owner stream = p ↔ stream % 2 = p.parity := by
  unfold owner
  cases p <;> split <;> simp [Role.parity] <;> omega

/-- The channel that the table of `p` holds for a stream. -/
def Peers.entry (σ : Peers) (p : Role) (stream : Nat) : Option DataChannel :=
  ((σ.peer p).mDataChannels stream).bind (σ.peer p).channels

/-- A channel of the other peer came with the open message of channel `i` of `p`. -/
def Peers.Claimed (σ : Peers) (p : Role) (i : Nat) : Prop :=
  ∃ j b, (σ.peer p.other).channels j = some b ∧ b.partner = some i

/-- The stage of a stream, from the side of `p`. -/
def Peers.sees (σ : Peers) (p : Role) (stream : Nat) : Prop :=
  Sees (σ.Claimed (owner stream)) (owner stream = p) (σ.entry p stream) (σ.entry p.other stream)
    (σ.wire p stream) (σ.wire p.other stream)

/-- What every message may measure to pass both transports. -/
def Config.limit (cfg : Config) : Nat := min (cfg.mMaxMessageSize .Active) (cfg.mMaxMessageSize .Passive)

/-- The open message of a channel passes both transports. -/
def Fits (cfg : Config) (label protocol : Bytes) : Prop :=
  label.length ≤ 65535 ∧ protocol.length ≤ 65535 ∧
    sizeofOpenMessage + label.length + protocol.length ≤ cfg.limit

/-- A pair of channels tells the same story on both sides. -/
structure Linked (a b : DataChannel) : Prop where
  opened   : a.opened = true
  agree    : Agree a b
  forth    : Conveys a.mReliability b.received a.sent
  back     : Conveys a.mReliability a.received b.sent

/-- What every channel of a peer is. -/
structure Made (cfg : Config) (i count : Nat) (c : DataChannel) : Prop where
  id          : c.id = i
  lt          : i < count
  fits        : c.outgoing = true → Fits cfg c.mLabel c.mProtocol
  reliability : c.mReliability.maxPacketLifeTime = none ∨ c.mReliability.maxRetransmits = none
  partner     : c.outgoing = true → c.partner = none
  source      : c.outgoing = false → c.partner.isSome = true
  opened      : c.opened = true → c.outgoing = true
  unassigned  : c.mStream = none → c.outgoing = true ∧ Unopened c
  destroyed   : c.destroyed = true → c.mIsClosed = true

structure Inv (cfg : Config) (σ : Peers) : Prop where
  made   : ∀ p i c, (σ.peer p).channels i = some c → Made cfg i (σ.peer p).count c
  entry  : ∀ p s i, (σ.peer p).mDataChannels s = some i →
    ∃ c, (σ.peer p).channels i = some c ∧ c.mStream = some s ∧ (c.outgoing = true ↔ owner s = p)
  listed : ∀ p i c s, (σ.peer p).channels i = some c → c.mStream = some s →
    (σ.peer p).mDataChannels s = some i ∨ c.mIsClosed = true
  sees   : ∀ p s, σ.sees p s
  linked : ∀ p j b i, (σ.peer p.other).channels j = some b → b.partner = some i →
    ∃ a, (σ.peer p).channels i = some a ∧ Linked a b
  unique : ∀ p j b j' b' i, (σ.peer p).channels j = some b → (σ.peer p).channels j' = some b' →
    b.partner = some i → b'.partner = some i → j = j'
  small  : ∀ p s, ∀ m ∈ σ.wire p s, m.data.length ≤ cfg.limit
  faults : σ.faults = []

/-! ## Sides -/

theorem Sees.flip {claimed : Nat → Prop} {own own' : Bool} {c? d? : Option DataChannel} {wc wd : List Message}
    (h : Sees claimed own c? d? wc wd) (hown : own' = !own) : Sees claimed own' d? c? wd wc := by
  subst hown
  cases own <;> exact h

theorem owner_other (stream : Nat) (p : Role) :
    decide (owner stream = p.other) = !decide (owner stream = p) := by
  cases p <;> unfold owner <;> split <;> rfl

/-- Both peers see the same. -/
theorem Peers.sees_other {σ : Peers} {p : Role} {s : Nat} (h : σ.sees p s) : σ.sees p.other s := by
  unfold Peers.sees
  rw [Role.other_other]
  exact Sees.flip h (owner_other s p)

/-- It is enough to know what one of the peers sees. -/
theorem forall_sees {σ : Peers} {p : Role} (h : ∀ s, σ.sees p s) : ∀ r s, σ.sees r s := by
  intro r s
  rcases p.eq_or_other r with rfl | rfl
  · exact h s
  · exact Peers.sees_other (h s)

theorem Sees.claim {claimed claimed' : Nat → Prop} {own : Bool} {c? d? : Option DataChannel}
    {wc wd : List Message} (h : Sees claimed own c? d? wc wd)
    (hclaim : ∀ a, (if own then c? else d?) = some a → claimed' a.id → claimed a.id) :
    Sees claimed' own c? d? wc wd := by
  cases own with
  | true => exact Stage.claim h hclaim
  | false => exact Stage.claim h hclaim

theorem entry_eq {σ : Peers} {p : Role} {s i : Nat} {c : DataChannel}
    (ht : (σ.peer p).mDataChannels s = some i) (hc : (σ.peer p).channels i = some c) :
    σ.entry p s = some c := by
  rw [Peers.entry, ht, Option.bind_some, hc]

theorem entry_none {σ : Peers} {p : Role} {s : Nat} (ht : (σ.peer p).mDataChannels s = none) :
    σ.entry p s = none := by
  rw [Peers.entry, ht, Option.bind_none]

/-- A channel that is not closed and has a stream is in the table. -/
theorem Inv.listed_open {cfg : Config} {σ : Peers} (h : Inv cfg σ) {p : Role} {i s : Nat} {c : DataChannel}
    (hc : (σ.peer p).channels i = some c) (hs : c.mStream = some s) (hopen : c.mIsClosed = false) :
    (σ.peer p).mDataChannels s = some i := by
  rcases h.listed p i c s hc hs with ht | hclosed
  · exact ht
  · rw [hopen] at hclosed
    exact absurd hclosed (by simp)

/-! ## One channel changes -/

/-- What a step may do to a channel. -/
structure Evolves (c c' : DataChannel) : Prop where
  id          : c'.id = c.id
  outgoing    : c'.outgoing = c.outgoing
  label       : c'.mLabel = c.mLabel
  protocol    : c'.mProtocol = c.mProtocol
  reliability : c'.mReliability = c.mReliability
  stream      : c'.mStream = c.mStream
  partner     : c'.partner = c.partner
  opened      : c.opened = true → c'.opened = true
  opening     : c'.opened = true → c.opened = true ∨ c.outgoing = true
  closed      : c.mIsClosed = true → c'.mIsClosed = true
  destroyed   : c'.destroyed = true → c'.mIsClosed = true
  sent        : ∃ xs, c'.sent = c.sent ++ xs
  unassigned  : c.mStream = none → Unopened c → Unopened c'

/-- `σ'` is `σ` but for channel `i` of `p`, its entry in the table and the messages on its stream. -/
structure Changed (σ σ' : Peers) (p : Role) (i : Nat) (c c' : DataChannel) : Prop where
  before   : (σ.peer p).channels i = some c
  evolves  : Evolves c c'
  channels : (σ'.peer p).channels = Function.update (σ.peer p).channels i (some c')
  count    : (σ'.peer p).count = (σ.peer p).count
  table    : ∀ s, (σ'.peer p).mDataChannels s = (σ.peer p).mDataChannels s ∨
    ((σ'.peer p).mDataChannels s = none ∧ (σ.peer p).mDataChannels s = some i ∧ c'.mIsClosed = true)
  other    : σ'.peer p.other = σ.peer p.other
  wire     : ∀ r s, c.mStream ≠ some s → σ'.wire r s = σ.wire r s
  faults   : σ'.faults = σ.faults

namespace Changed

variable {cfg : Config} {σ σ' : Peers} {p : Role} {i : Nat} {c c' : DataChannel}

theorem after (h : Changed σ σ' p i c c') : (σ'.peer p).channels i = some c' := by
  rw [h.channels, Function.update_self]

/-- Which channels there are. -/
theorem cases (h : Changed σ σ' p i c c') {r : Role} {j : Nat} {b : DataChannel}
    (hb : (σ'.peer r).channels j = some b) :
    (r = p ∧ j = i ∧ b = c') ∨ ((σ.peer r).channels j = some b ∧ (r = p → j ≠ i)) := by
  rcases p.eq_or_other r with rfl | rfl
  · rw [h.channels] at hb
    by_cases hj : j = i
    · subst hj
      rw [Function.update_self] at hb
      exact .inl ⟨rfl, rfl, (Option.some.inj hb).symm⟩
    · rw [Function.update_of_ne hj] at hb
      exact .inr ⟨hb, fun _ => hj⟩
  · rw [h.other] at hb
    exact .inr ⟨hb, fun hr => absurd hr p.other_ne⟩

/-- Every channel is there still, changed or not. -/
theorem still (h : Changed σ σ' p i c c') {r : Role} {j : Nat} {b : DataChannel}
    (hb : (σ.peer r).channels j = some b) :
    (r = p ∧ j = i ∧ b = c) ∨ ((σ'.peer r).channels j = some b ∧ (r = p → j ≠ i)) := by
  rcases p.eq_or_other r with rfl | rfl
  · by_cases hj : j = i
    · subst hj
      exact .inl ⟨rfl, rfl, Option.some.inj (hb.symm.trans h.before)⟩
    · exact .inr ⟨by rw [h.channels, Function.update_of_ne hj, hb], fun _ => hj⟩
  · exact .inr ⟨by rw [h.other, hb], fun hr => absurd hr p.other_ne⟩

theorem claimed (h : Changed σ σ' p i c c') {r : Role} {k : Nat} (hk : σ'.Claimed r k) : σ.Claimed r k := by
  obtain ⟨j, b, hb, hpartner⟩ := hk
  rcases h.cases hb with ⟨hr, rfl, rfl⟩ | ⟨hb, -⟩
  · exact ⟨j, c, hr ▸ h.before, h.evolves.partner ▸ hpartner⟩
  · exact ⟨j, b, hb, hpartner⟩

/-- On every other stream the table holds what it held. -/
theorem entry (h : Changed σ σ' p i c c') (hinv : Inv cfg σ) {s : Nat} (hs : c.mStream ≠ some s) (r : Role) :
    σ'.entry r s = σ.entry r s := by
  rcases p.eq_or_other r with rfl | rfl
  · rcases h.table s with ht | ⟨-, ht, -⟩
    · rw [Peers.entry, Peers.entry, ht]
      cases hj : (σ.peer r).mDataChannels s with
      | none => rfl
      | some j =>
          -- the channel on this stream is another one
          obtain ⟨b, hb, hstream, -⟩ := hinv.entry r s j hj
          rcases h.still hb with ⟨-, -, rfl⟩ | ⟨hb', -⟩
          · exact absurd hstream hs
          · rw [Option.bind_some, Option.bind_some, hb, hb']
    · obtain ⟨b, hb, hstream, -⟩ := hinv.entry r s i ht
      obtain rfl : b = c := Option.some.inj (hb.symm.trans h.before)
      exact absurd hstream hs
  · rw [Peers.entry, Peers.entry, h.other]

theorem sees (h : Changed σ σ' p i c c') (hinv : Inv cfg σ) (hsees : ∀ s, c.mStream = some s → σ'.sees p s) :
    ∀ s, σ'.sees p s := by
  intro s
  by_cases hs : c.mStream = some s
  · exact hsees s hs
  · show Sees _ _ _ _ _ _
    rw [h.entry hinv hs, h.entry hinv hs, h.wire _ _ hs, h.wire _ _ hs]
    exact (hinv.sees p s).claim fun _ _ => h.claimed

/-- Every pair still tells the same story. -/
theorem linked (h : Changed σ σ' p i c c') (hinv : Inv cfg σ)
    (hrecv : c'.received = c.received ∨ ∃ j d, (σ.peer p.other).channels j = some d ∧
      Partners c.outgoing c d ∧ Conveys c.mReliability c'.received d.sent) {r : Role} {j k : Nat}
    {b : DataChannel} (hb : (σ'.peer r.other).channels j = some b) (hpartner : b.partner = some k) :
    ∃ a, (σ'.peer r).channels k = some a ∧ Linked a b := by
  obtain ⟨xs, hsent⟩ := h.evolves.sent
  have hmade := hinv.made p i c h.before
  rcases h.cases hb with ⟨hr, rfl, rfl⟩ | ⟨hb', hne⟩
  · -- the channel that changes is the incoming one
    obtain rfl : r.other = p := hr
    rw [Role.other_other] at hrecv
    rw [h.evolves.partner] at hpartner
    obtain ⟨a, ha, hlinked⟩ := hinv.linked r j c k h.before hpartner
    have hagree := hlinked.agree
    rcases h.still ha with ⟨hr', -⟩ | ⟨ha', -⟩
    · exact absurd hr'.symm r.other_ne
    · refine ⟨a, ha', hlinked.opened, ⟨h.evolves.label.trans hagree.label,
        h.evolves.protocol.trans hagree.protocol, h.evolves.reliability.trans hagree.reliability,
        h.evolves.stream.trans hagree.stream, h.evolves.partner.trans hagree.partner⟩, ?_, ?_⟩
      · rcases hrecv with hrecv | ⟨l, d, hd, hpart, hconv⟩
        · rw [hrecv]
          exact hlinked.forth
        · cases hout : c.outgoing with
          | true =>
              rw [hmade.partner hout] at hpartner
              exact absurd hpartner (by simp)
          | false =>
              rw [hout] at hpart
              have hid : d.id = k := Option.some.inj (hpart.partner.symm.trans hpartner)
              rw [(hinv.made r l d hd).id] at hid
              subst hid
              obtain rfl : d = a := Option.some.inj (hd.symm.trans ha)
              rw [← hagree.reliability]
              exact hconv
      · rw [hsent]
        exact hlinked.back.send xs
  · obtain ⟨a, ha, hlinked⟩ := hinv.linked r j b k hb' hpartner
    rcases h.still ha with ⟨rfl, rfl, rfl⟩ | ⟨ha', -⟩
    · -- the channel that changes is the outgoing one
      have hagree := hlinked.agree
      refine ⟨c', h.after, h.evolves.opened hlinked.opened, ⟨hagree.label.trans h.evolves.label.symm,
        hagree.protocol.trans h.evolves.protocol.symm, hagree.reliability.trans h.evolves.reliability.symm,
        hagree.stream.trans h.evolves.stream.symm, ?_⟩, ?_, ?_⟩
      · rw [h.evolves.id]
        exact hagree.partner
      · rw [h.evolves.reliability, hsent]
        exact hlinked.forth.send xs
      · rw [h.evolves.reliability]
        rcases hrecv with hrecv | ⟨l, d, hd, hpart, hconv⟩
        · rw [hrecv]
          exact hlinked.back
        · rw [hmade.opened hlinked.opened] at hpart
          have hd' : d.partner = some k := by rw [hpart.partner, hmade.id]
          obtain rfl := hinv.unique _ l d j b k hd hb' hd' hpartner
          obtain rfl : d = b := Option.some.inj (hd.symm.trans hb')
          exact hconv
    · exact ⟨a, ha', hlinked⟩

/-- **The rule for one channel.** A step that changes one channel keeps the invariant if its stream is
    still at a stage. -/
theorem inv (h : Changed σ σ' p i c c') (hinv : Inv cfg σ)
    (hsees : ∀ s, c.mStream = some s → σ'.sees p s)
    (hrecv : c'.received = c.received ∨ ∃ j d, (σ.peer p.other).channels j = some d ∧
      Partners c.outgoing c d ∧ Conveys c.mReliability c'.received d.sent)
    (hsmall : ∀ r s, c.mStream = some s → ∀ m ∈ σ'.wire r s, m.data.length ≤ cfg.limit) : Inv cfg σ' where
  made := by
    intro r j b hb
    rcases h.cases hb with ⟨rfl, rfl, rfl⟩ | ⟨hb, -⟩
    · have hmade := hinv.made r j c h.before
      have he := h.evolves
      rw [h.count]
      refine ⟨he.id.trans hmade.id, hmade.lt, ?_, ?_, ?_, ?_, ?_, ?_, he.destroyed⟩
      · rw [he.outgoing, he.label, he.protocol]
        exact hmade.fits
      · rw [he.reliability]
        exact hmade.reliability
      · rw [he.outgoing, he.partner]
        exact hmade.partner
      · rw [he.outgoing, he.partner]
        exact hmade.source
      · intro ho
        rw [he.outgoing]
        exact (he.opening ho).elim hmade.opened id
      · rw [he.stream, he.outgoing]
        intro hs
        exact ⟨(hmade.unassigned hs).1, he.unassigned hs (hmade.unassigned hs).2⟩
    · have hmade := hinv.made r j b hb
      rcases p.eq_or_other r with rfl | rfl
      · rw [h.count]
        exact hmade
      · rw [h.other]
        exact hmade
  entry := by
    intro r s j hj
    have hj' : (σ.peer r).mDataChannels s = some j := by
      rcases p.eq_or_other r with rfl | rfl
      · rcases h.table s with ht | ⟨ht, -⟩
        · rwa [ht] at hj
        · rw [ht] at hj
          exact absurd hj (by simp)
      · rwa [h.other] at hj
    obtain ⟨b, hb, hstream, hout⟩ := hinv.entry r s j hj'
    rcases h.still hb with ⟨rfl, rfl, rfl⟩ | ⟨hb', -⟩
    · exact ⟨c', h.after, h.evolves.stream.trans hstream, by rw [h.evolves.outgoing]; exact hout⟩
    · exact ⟨b, hb', hstream, hout⟩
  listed := by
    intro r j b s hb hs
    rcases h.cases hb with ⟨rfl, rfl, rfl⟩ | ⟨hb', hne⟩
    · rw [h.evolves.stream] at hs
      rcases h.table s with ht | ⟨-, -, hclosed⟩
      · rw [ht]
        exact (hinv.listed r j c s h.before hs).imp id h.evolves.closed
      · exact .inr hclosed
    · rcases p.eq_or_other r with rfl | rfl
      · rcases hinv.listed r j b s hb' hs with ht | hclosed
        · rcases h.table s with ht' | ⟨-, ht', -⟩
          · exact .inl (ht'.trans ht)
          · exact absurd (Option.some.inj (ht.symm.trans ht')) (hne rfl)
        · exact .inr hclosed
      · rw [h.other]
        exact hinv.listed _ j b s hb' hs
  sees := forall_sees (h.sees hinv hsees)
  linked := fun r j b k hb hpartner => h.linked hinv hrecv hb hpartner
  unique := by
    intro r j b j' b' k hb hb' hp hp'
    have hold : ∀ {l x}, (σ'.peer r).channels l = some x → x.partner = some k →
        ∃ y, (σ.peer r).channels l = some y ∧ y.partner = some k := by
      intro l x hx hpx
      rcases h.cases hx with ⟨rfl, rfl, rfl⟩ | ⟨hx, -⟩
      · exact ⟨c, h.before, h.evolves.partner ▸ hpx⟩
      · exact ⟨x, hx, hpx⟩
    obtain ⟨y, hy, hpy⟩ := hold hb hp
    obtain ⟨y', hy', hpy'⟩ := hold hb' hp'
    exact hinv.unique r j y j' y' k hy hy' hpy hpy'
  small := by
    intro r s m hm
    by_cases hs : c.mStream = some s
    · exact hsmall r s hs m hm
    · rw [h.wire r s hs] at hm
      exact hinv.small r s m hm
  faults := h.faults.trans hinv.faults

end Changed

/-! ## A channel comes, or gets its stream -/

/-- `σ'` is `σ` but for channel `i` of `p`, which had no stream before, its entry and its stream. -/
structure Placed (cfg : Config) (σ σ' : Peers) (p : Role) (i : Nat) (c' : DataChannel) : Prop where
  before   : ∀ c, (σ.peer p).channels i = some c → c.mStream = none
  made     : Made cfg i (σ'.peer p).count c'
  channels : (σ'.peer p).channels = Function.update (σ.peer p).channels i (some c')
  count    : (σ.peer p).count ≤ (σ'.peer p).count
  taken    : ∀ s, c'.mStream = some s → (σ.peer p).mDataChannels s = none ∧
    (σ'.peer p).mDataChannels s = some i ∧ (c'.outgoing = true ↔ owner s = p)
  table    : ∀ s, c'.mStream ≠ some s → (σ'.peer p).mDataChannels s = (σ.peer p).mDataChannels s
  other    : σ'.peer p.other = σ.peer p.other
  wire     : ∀ r s, c'.mStream ≠ some s → σ'.wire r s = σ.wire r s
  faults   : σ'.faults = σ.faults
  partner  : ∀ k, c'.partner = some k →
    ¬ σ.Claimed p.other k ∧ ∃ a, (σ.peer p.other).channels k = some a ∧ Linked a c'

namespace Placed

variable {cfg : Config} {σ σ' : Peers} {p : Role} {i : Nat} {c' : DataChannel}

theorem after (h : Placed cfg σ σ' p i c') : (σ'.peer p).channels i = some c' := by
  rw [h.channels, Function.update_self]

theorem cases (h : Placed cfg σ σ' p i c') {r : Role} {j : Nat} {b : DataChannel}
    (hb : (σ'.peer r).channels j = some b) :
    (r = p ∧ j = i ∧ b = c') ∨ ((σ.peer r).channels j = some b ∧ (r = p → j ≠ i)) := by
  rcases p.eq_or_other r with rfl | rfl
  · rw [h.channels] at hb
    by_cases hj : j = i
    · subst hj
      rw [Function.update_self] at hb
      exact .inl ⟨rfl, rfl, (Option.some.inj hb).symm⟩
    · rw [Function.update_of_ne hj] at hb
      exact .inr ⟨hb, fun _ => hj⟩
  · rw [h.other] at hb
    exact .inr ⟨hb, fun hr => absurd hr p.other_ne⟩

/-- A channel that has a stream is there still. -/
theorem still (h : Placed cfg σ σ' p i c') {r : Role} {j s : Nat} {b : DataChannel}
    (hb : (σ.peer r).channels j = some b) (hs : b.mStream = some s) : (σ'.peer r).channels j = some b := by
  rcases p.eq_or_other r with rfl | rfl
  · rw [h.channels, Function.update_of_ne, hb]
    rintro rfl
    rw [h.before b hb] at hs
    exact absurd hs (by simp)
  · rw [h.other, hb]

theorem entry (h : Placed cfg σ σ' p i c') (hinv : Inv cfg σ) {s : Nat} (hs : c'.mStream ≠ some s) (r : Role) :
    σ'.entry r s = σ.entry r s := by
  have ht : (σ'.peer r).mDataChannels s = (σ.peer r).mDataChannels s := by
    rcases p.eq_or_other r with rfl | rfl
    · exact h.table s hs
    · rw [h.other]
  rw [Peers.entry, Peers.entry, ht]
  cases hj : (σ.peer r).mDataChannels s with
  | none => rfl
  | some j =>
      obtain ⟨b, hb, hstream, -⟩ := hinv.entry r s j hj
      rw [Option.bind_some, Option.bind_some, hb, h.still hb hstream]

theorem claimed (h : Placed cfg σ σ' p i c') {r : Role} {k : Nat} (hk : σ'.Claimed r k) :
    σ.Claimed r k ∨ (r.other = p ∧ c'.partner = some k) := by
  obtain ⟨j, b, hb, hpartner⟩ := hk
  rcases h.cases hb with ⟨hr, -, rfl⟩ | ⟨hb, -⟩
  · exact .inr ⟨hr, hpartner⟩
  · exact .inl ⟨j, b, hb, hpartner⟩

theorem sees (h : Placed cfg σ σ' p i c') (hinv : Inv cfg σ) (hsees : ∀ s, c'.mStream = some s → σ'.sees p s) :
    ∀ s, σ'.sees p s := by
  intro s
  by_cases hs : c'.mStream = some s
  · exact hsees s hs
  · show Sees _ _ _ _ _ _
    rw [h.entry hinv hs, h.entry hinv hs, h.wire _ _ hs, h.wire _ _ hs]
    refine (hinv.sees p s).claim ?_
    intro a ha hclaim
    rcases h.claimed hclaim with hclaim | ⟨hr, hpartner⟩
    · exact hclaim
    · -- the channel that is claimed now is on another stream
      exfalso
      obtain ⟨-, a', ha', hlinked⟩ := h.partner a.id hpartner
      have howner : owner s ≠ p := by
        rintro rfl
        exact absurd hr (Role.other_ne _)
      rw [decide_eq_false howner, if_neg (by simp)] at ha
      obtain ⟨j, hj, hc⟩ := Option.bind_eq_some_iff.mp ha
      obtain ⟨a'', ha'', hstream, -⟩ := hinv.entry p.other s j hj
      obtain rfl : a'' = a := Option.some.inj (ha''.symm.trans hc)
      obtain rfl := (hinv.made _ j a'' hc).id
      obtain rfl : a' = a'' := Option.some.inj (ha'.symm.trans hc)
      exact hs (hlinked.agree.stream.trans hstream)

/-- **The rule for a new channel.** -/
theorem inv (h : Placed cfg σ σ' p i c') (hinv : Inv cfg σ) (hsees : ∀ s, c'.mStream = some s → σ'.sees p s)
    (hsmall : ∀ r s, c'.mStream = some s → ∀ m ∈ σ'.wire r s, m.data.length ≤ cfg.limit) : Inv cfg σ' where
  made := by
    intro r j b hb
    rcases h.cases hb with ⟨rfl, rfl, rfl⟩ | ⟨hb, -⟩
    · exact h.made
    · have hmade := hinv.made r j b hb
      rcases p.eq_or_other r with rfl | rfl
      · exact { hmade with lt := Nat.lt_of_lt_of_le hmade.lt h.count }
      · rw [h.other]
        exact hmade
  entry := by
    intro r s j hj
    have hold : (σ.peer r).mDataChannels s = some j →
        ∃ c, (σ'.peer r).channels j = some c ∧ c.mStream = some s ∧ (c.outgoing = true ↔ owner s = r) := by
      intro hj
      obtain ⟨b, hb, hstream, hout⟩ := hinv.entry r s j hj
      exact ⟨b, h.still hb hstream, hstream, hout⟩
    rcases p.eq_or_other r with rfl | rfl
    · by_cases hs : c'.mStream = some s
      · obtain ⟨-, ht, hout⟩ := h.taken s hs
        obtain rfl : i = j := Option.some.inj (ht.symm.trans hj)
        exact ⟨c', h.after, hs, hout⟩
      · rw [h.table s hs] at hj
        exact hold hj
    · rw [h.other] at hj
      exact hold hj
  listed := by
    intro r j b s hb hs
    rcases h.cases hb with ⟨rfl, rfl, rfl⟩ | ⟨hb', -⟩
    · exact .inl (h.taken s hs).2.1
    · rcases hinv.listed r j b s hb' hs with ht | hclosed
      · rcases p.eq_or_other r with rfl | rfl
        · by_cases hs' : c'.mStream = some s
          · rw [(h.taken s hs').1] at ht
            exact absurd ht (by simp)
          · exact .inl ((h.table s hs').trans ht)
        · rw [h.other]
          exact .inl ht
      · exact .inr hclosed
  sees := forall_sees (h.sees hinv hsees)
  linked := by
    intro r j b k hb hpartner
    rcases h.cases hb with ⟨hr, rfl, rfl⟩ | ⟨hb', -⟩
    · obtain rfl : r.other = p := hr
      obtain ⟨-, a, ha, hlinked⟩ := h.partner k hpartner
      rw [Role.other_other] at ha
      refine ⟨a, ?_, hlinked⟩
      have := h.other
      rw [Role.other_other] at this
      rw [this, ha]
    · obtain ⟨a, ha, hlinked⟩ := hinv.linked r j b k hb' hpartner
      cases hs : a.mStream with
      | some s => exact ⟨a, h.still ha hs, hlinked⟩
      | none =>
          -- a channel without a stream is not open
          have hopened := hlinked.opened
          rw [((hinv.made r k a ha).unassigned hs).2.opened] at hopened
          exact absurd hopened (by simp)
  unique := by
    intro r j b j' b' k hb hb' hp hp'
    have hclash : ∀ {l x}, r = p → c'.partner = some k → (σ.peer r).channels l = some x →
        x.partner = some k → False := by
      intro l x hr hc hx hpx
      subst hr
      refine (h.partner k hc).1 ⟨l, x, ?_, hpx⟩
      rw [Role.other_other]
      exact hx
    rcases h.cases hb with ⟨hr, rfl, rfl⟩ | ⟨hb, -⟩
    · rcases h.cases hb' with ⟨-, rfl, rfl⟩ | ⟨hb', -⟩
      · rfl
      · exact (hclash hr hp hb' hp').elim
    · rcases h.cases hb' with ⟨hr, rfl, rfl⟩ | ⟨hb', -⟩
      · exact (hclash hr hp' hb hp).elim
      · exact hinv.unique r j b j' b' k hb hb' hp hp'
  small := by
    intro r s m hm
    by_cases hs : c'.mStream = some s
    · exact hsmall r s hs m hm
    · rw [h.wire r s hs] at hm
      exact hinv.small r s m hm
  faults := h.faults.trans hinv.faults

end Placed

end HxDatachannel.Dcep
