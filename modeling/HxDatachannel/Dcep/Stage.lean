import HxDatachannel.Dcep.Session

/-!
# `Dcep.Stage` — what the two ends of a stream agree on

A stream belongs to the peer whose parity it has. `Stage` says how far the session on a stream is, from
the channels that the tables of the owner and of the other peer hold and the messages on the way: the
other peer has not seen the open message yet and may still hold the channel of the last session
(`pending`), both ends are registered (`paired`), or the other peer has unregistered its end (`half`).
`Sees` is the same from the side of the peer that acts. Every local step leads from a stage to a stage.
-/

namespace HxDatachannel.Dcep

open Link

/-- The channel that came with the open message of `a`. -/
structure Agree (a b : DataChannel) : Prop where
  label       : b.mLabel = a.mLabel
  protocol    : b.mProtocol = a.mProtocol
  reliability : b.mReliability = a.mReliability
  stream      : b.mStream = a.mStream
  partner     : b.partner = some a.id

/-- A channel that has not sent its open message. -/
structure Unopened (a : DataChannel) : Prop where
  transport : a.mSctpTransport = false
  isOpen    : a.mIsOpen = false
  opened    : a.opened = false
  sent      : a.sent = []
  received  : a.received = []

/-- The open message of channel `a`. -/
def openMessage (a : DataChannel) (data : Bytes) : Message :=
  { type := .Control, data, reliability := none, source := some a.id }

/-- The open message of `a` is on the way, and behind it what `a` sent since, in order. -/
structure Awaiting (a : DataChannel) (w : List Message) : Prop where
  transport : a.mSctpTransport = true
  isOpen    : a.mIsOpen = false
  opened    : a.opened = true
  received  : a.received = []
  wire      : ∃ data items, OutgoingDataChannel.open a.mLabel a.mProtocol a.mReliability = .ok data ∧
    w = openMessage a data :: (items ++ if a.mIsClosed then [reset a.id] else []) ∧
    (∀ m ∈ items, m.content?.isSome = true ∧ m.reliability = none) ∧ contents items = a.sent

/-- Both ends are registered and know of each other. -/
structure Paired (a b : DataChannel) (wa wb : List Message) : Prop where
  opened     : a.opened = true
  aTransport : a.mSctpTransport = true
  bTransport : b.mSctpTransport = true
  bOpen      : b.mIsOpen = true
  agree      : Agree a b
  aSide      : Side a.mReliability a.id a.mIsClosed a.sent b.mIsClosed b.received wa
  bSide      : Side a.mReliability b.id b.mIsClosed b.sent a.mIsClosed a.received wb
  ack        : a.mIsOpen = false → a.mIsClosed = false → ∃ m ∈ wb, m.isAck

/-- What the other peer still holds of the last session, and what it has yet to get of it. -/
def Stale : Option DataChannel → List Message → Prop
  | none, w   => w = []
  | some b, w => b.mIsClosed = true ∧ Closing w

/-- What the owner holds of a session that the other peer has not seen, and what is on the way of it. -/
def Unseen (claimed : Nat → Prop) : Option DataChannel → List Message → Prop
  | none, w   => w = []
  | some a, w => ¬ claimed a.id ∧ (Unopened a ∧ w = [] ∨ Awaiting a w)

/-- How far the session on a stream is. `claimed i`: the other peer has a channel that came with the open
    message of channel `i`. -/
inductive Stage (claimed : Nat → Prop) :
    Option DataChannel → Option DataChannel → List Message → List Message → Prop where
  | pending {a? b? : Option DataChannel} {tail current wa : List Message} (hw : wa = tail ++ current)
      (hb : Stale b? tail) (ha : Unseen claimed a? current) : Stage claimed a? b? wa []
  | paired {a b : DataChannel} {wa wb : List Message} (h : Paired a b wa wb) :
      Stage claimed (some a) (some b) wa wb
  | half {a : DataChannel} {wb : List Message} (hclosed : a.mIsClosed = true) (hopened : a.opened = true)
      (hw : Closing wb) : Stage claimed (some a) none [] wb

/-- The stage from the side of the peer that acts; `own`: the stream is its own. -/
def Sees (claimed : Nat → Prop) (own : Bool) (c? d? : Option DataChannel) (wc wd : List Message) : Prop :=
  if own then Stage claimed c? d? wc wd else Stage claimed d? c? wd wc

variable {claimed : Nat → Prop} {own : Bool} {a b c d : DataChannel} {a? b? c? d? : Option DataChannel}
  {wa wb wc wd : List Message}

/-- Nothing happened on the stream, and its channel is claimed no more than before. -/
theorem Stage.claim {claimed' : Nat → Prop} (h : Stage claimed a? b? wa wb)
    (hclaim : ∀ a, a? = some a → claimed' a.id → claimed a.id) :
    Stage claimed' a? b? wa wb := by
  cases h with
  | pending hw hb ha =>
      refine .pending hw hb ?_
      cases a? with
      | none => exact ha
      | some a => exact ⟨fun h => ha.1 (hclaim a rfl h), ha.2⟩
  | paired h => exact .paired h
  | half hclosed hopened hw => exact .half hclosed hopened hw

/-! ## Local steps of the owner -/

/-- The owner gives a free stream to a new channel. -/
theorem Stage.assign (h : Stage claimed none b? wa wb) (hclaim : ¬ claimed a.id) (ha : Unopened a) :
    Stage claimed (some a) b? wa wb := by
  cases h with
  | pending hw hb hnone =>
      obtain rfl : _ = [] := hnone
      exact .pending hw hb ⟨hclaim, .inl ⟨ha, rfl⟩⟩

/-- The owner opens a channel. -/
theorem Stage.open (h : Stage claimed (some a) b? wa wb) (hopened : a.opened = false)
    (hclosed : a.mIsClosed = false) {data : Bytes}
    (hdata : OutgoingDataChannel.open a.mLabel a.mProtocol a.mReliability = .ok data) :
    Stage claimed (some { a with mSctpTransport := true, opened := true }) b?
      (wa ++ [openMessage a data]) wb := by
  cases h with
  | @pending _ _ tail _ _ hw hb ha =>
      obtain ⟨hclaim, ⟨hun, rfl⟩ | hawait⟩ := ha
      · have hwire : wa ++ [openMessage a data] = tail ++ [openMessage a data] := by
          rw [hw, List.append_nil]
        refine .pending hwire hb ⟨hclaim, .inr ?_⟩
        refine ⟨rfl, hun.isOpen, rfl, hun.received, data, [], hdata, ?_, by simp, hun.sent.symm⟩
        simp [openMessage, hclosed]
      · rw [hawait.opened] at hopened
        exact absurd hopened (by simp)
  | paired h =>
      rw [h.opened] at hopened
      exact absurd hopened (by simp)
  | half hc ho hw =>
      rw [ho] at hopened
      exact absurd hopened (by simp)

/-! ## Local steps of either side -/

/-- What a channel sends for its user. -/
def userMessage (c : DataChannel) (x : Content) : Message :=
  { type := x.1, data := x.2, reliability := if c.mIsOpen then some c.mReliability else none,
    source := some c.id }

theorem userMessage_content? {x : Content} (hx : x.1 = .String ∨ x.1 = .Binary) :
    (userMessage c x).content? = some x := by
  simp [Message.content?, userMessage, hx]

theorem userMessage_item {x : Content} (hx : x.1 = .String ∨ x.1 = .Binary) :
    Item c.mReliability (userMessage c x) := by
  refine ⟨.inl (by rw [userMessage_content? hx]; rfl), ?_⟩
  cases ho : c.mIsOpen with
  | true => exact .inr (by simp [userMessage, ho])
  | false => exact .inl (by simp [userMessage, ho])

/-- A channel sends a content. -/
theorem Sees.send {x : Content} (h : Sees claimed own (some c) d? wc wd) (hclosed : c.mIsClosed = false)
    (htransport : c.mSctpTransport = true) (hx : x.1 = .String ∨ x.1 = .Binary) :
    Sees claimed own (some { c with sent := c.sent ++ [x] }) d? (wc ++ [userMessage c x]) wd := by
  have hcontent := userMessage_content? (c := c) hx
  have hitem := userMessage_item (c := c) hx
  cases own with
  | true =>
      cases h with
      | pending hw hb ha =>
          obtain ⟨hclaim, ⟨hun, -⟩ | ⟨h₁, h₂, h₃, h₄, data, items, hdata, rfl, hitems, hsent⟩⟩ := ha
          · rw [hun.transport] at htransport
            exact absurd htransport (by simp)
          · refine Stage.pending (by rw [hw, List.append_assoc]) hb ⟨hclaim, .inr ?_⟩
            refine ⟨h₁, h₂, h₃, h₄, data, items ++ [userMessage c x], hdata, ?_, ?_, ?_⟩
            · simp [openMessage, hclosed]
            · intro m hm
              rcases List.mem_append.mp hm with hm | hm
              · exact hitems m hm
              · rw [List.mem_singleton.mp hm]
                exact ⟨by rw [hcontent]; rfl, by simp [userMessage, h₂]⟩
            · rw [contents_append, hsent]
              simp [contents, hcontent]
      | paired h =>
          have hside := h.aSide
          rw [hclosed] at hside
          refine Stage.paired { h with aSide := ?_, agree := { h.agree with } }
          show Side c.mReliability c.id c.mIsClosed _ _ _ _
          rw [hclosed]
          exact hside.send hitem hcontent
      | half hc ho hw =>
          rw [hc] at hclosed
          exact absurd hclosed (by simp)
  | false =>
      cases h with
      | pending hw hb ha =>
          rw [hb.1] at hclosed
          exact absurd hclosed (by simp)
      | paired h =>
          have hside := h.bSide
          rw [hclosed] at hside
          refine Stage.paired { h with bSide := ?_, agree := { h.agree with }, ack := ?_ }
          · show Side _ c.id c.mIsClosed _ _ _ _
            rw [hclosed]
            exact hside.send (h.agree.reliability ▸ hitem) hcontent
          · intro ho hc
            obtain ⟨m, hm, hack⟩ := h.ack ho hc
            exact ⟨m, List.mem_append_left _ hm, hack⟩

/-- A channel is closed. -/
theorem Sees.close (h : Sees claimed own (some c) d? wc wd) (hclosed : c.mIsClosed = false) :
    Sees claimed own (some { c with mIsClosed := true }) d?
      (wc ++ if c.mSctpTransport then [reset c.id] else []) wd := by
  cases own with
  | true =>
      cases h with
      | pending hw hb ha =>
          obtain ⟨hclaim, ⟨hun, rfl⟩ | ⟨h₁, h₂, h₃, h₄, data, items, hdata, rfl, hitems, hsent⟩⟩ := ha
          · rw [if_neg (by simp [hun.transport]), List.append_nil]
            exact Stage.pending hw hb ⟨hclaim, .inl ⟨{ hun with }, rfl⟩⟩
          · refine Stage.pending (by rw [hw, List.append_assoc]) hb ⟨hclaim, .inr ?_⟩
            refine ⟨h₁, h₂, h₃, h₄, data, items, hdata, ?_, hitems, hsent⟩
            simp [openMessage, hclosed, h₁]
      | paired h =>
          have hside := h.aSide
          rw [hclosed] at hside
          rw [if_pos h.aTransport]
          exact Stage.paired { h with
            aSide := hside.close, bSide := h.bSide.deafen, agree := { h.agree with }, ack := nofun }
      | half hc ho hw =>
          rw [hc] at hclosed
          exact absurd hclosed (by simp)
  | false =>
      cases h with
      | pending hw hb ha =>
          rw [hb.1] at hclosed
          exact absurd hclosed (by simp)
      | paired h =>
          have hside := h.bSide
          rw [hclosed] at hside
          rw [if_pos h.bTransport]
          refine Stage.paired { h with
            aSide := h.aSide.deafen, bSide := hside.close, agree := { h.agree with }, ack := ?_ }
          intro ho hc
          obtain ⟨m, hm, hack⟩ := h.ack ho hc
          exact ⟨m, List.mem_append_left _ hm, hack⟩

/-- The last pointer to a closed channel goes. -/
theorem Sees.destroy (h : Sees claimed own (some c) d? wc wd) :
    Sees claimed own (some { c with destroyed := true }) d? wc wd := by
  cases own with
  | true =>
      cases h with
      | pending hw hb ha =>
          obtain ⟨hclaim, ⟨hun, rfl⟩ | hawait⟩ := ha
          · exact Stage.pending hw hb ⟨hclaim, .inl ⟨{ hun with }, rfl⟩⟩
          · exact Stage.pending hw hb ⟨hclaim, .inr { hawait with }⟩
      | paired h => exact Stage.paired { h with agree := { h.agree with } }
      | half hc ho hw => exact Stage.half hc ho hw
  | false =>
      cases h with
      | pending hw hb ha => exact Stage.pending hw hb ha
      | paired h => exact Stage.paired { h with agree := { h.agree with } }

/-! ## A message on the way to the acting side -/

theorem mem_eraseIdx_of_ne {α : Type} {l : List α} {k : Nat} {x m : α} (hx : x ∈ l) (hm : l[k]? = some m)
    (hne : x ≠ m) : x ∈ l.eraseIdx k := by
  obtain ⟨i, hi⟩ := List.mem_iff_getElem?.mp hx
  refine List.mem_eraseIdx_iff_getElem?.mpr ⟨i, ?_, hi⟩
  rintro rfl
  exact hne (Option.some.inj (hi.symm.trans hm))

/-- What is on the way of a session that was not seen is not given up. -/
theorem Unseen.not_lossy {w : List Message} {m : Message} (h : Unseen claimed a? w) (hm : m ∈ w) :
    m.lossy = false := by
  cases a? with
  | none =>
      obtain rfl : w = [] := h
      exact absurd hm (by simp)
  | some a =>
      obtain ⟨-, ⟨-, rfl⟩ | ⟨-, -, -, -, data, items, -, rfl, hitems, -⟩⟩ := h
      · exact absurd hm (by simp)
      · rcases List.mem_cons.mp hm with rfl | hm
        · rfl
        · rcases List.mem_append.mp hm with hm | hm
          · simp [Message.lossy, (hitems m hm).2]
          · cases hc : a.mIsClosed with
            | true =>
                simp only [hc, if_true, List.mem_singleton] at hm
                rw [hm]
                rfl
            | false => simp [hc] at hm

/-- A message to the acting side is given up. -/
theorem Sees.lose {k : Nat} {m : Message} (h : Sees claimed own c? d? wc wd) (hm : wd[k]? = some m)
    (hl : m.lossy = true) : Sees claimed own c? d? wc (wd.eraseIdx k) := by
  cases own with
  | true =>
      cases h with
      | pending hw hb ha => exact absurd hm (by simp)
      | paired h =>
          refine Stage.paired { h with bSide := h.bSide.lose hm hl, ack := ?_ }
          intro ho hc
          obtain ⟨x, hx, hack⟩ := h.ack ho hc
          refine ⟨x, mem_eraseIdx_of_ne hx hm ?_, hack⟩
          rintro rfl
          -- an ACK is reliable
          obtain ⟨items, hw, hitems, -⟩ := h.bSide
          rw [hw] at hx
          rcases List.mem_append.mp hx with hx | hx
          · rcases (hitems x hx).plain with hp | hp
            · rw [isAck_content? hack] at hp
              exact absurd hp (by simp)
            · simp [Message.lossy, hp.2] at hl
          · split at hx
            · rw [List.mem_singleton.mp hx] at hl
              exact absurd hl (by simp [reset, Message.lossy])
            · exact absurd hx (by simp)
      | half hc ho hw =>
          obtain ⟨w', hw', hclosing⟩ := hw.lose (v := []) hm hl
          rw [List.append_nil, List.append_nil] at hw'
          exact Stage.half hc ho (hw' ▸ hclosing)
  | false =>
      cases h with
      | @pending _ _ tail current _ hw hb ha =>
          rw [hw] at hm ⊢
          rcases Nat.lt_or_ge k tail.length with hk | hk
          · rw [List.getElem?_append_left hk] at hm
            cases c? with
            | none =>
                obtain rfl : tail = [] := hb
                exact absurd hk (by simp)
            | some c =>
                obtain ⟨w', hw', hclosing⟩ := hb.2.lose (v := current) hm hl
                exact Stage.pending hw' ⟨hb.1, hclosing⟩ ha
          · rw [List.getElem?_append_right hk] at hm
            rw [ha.not_lossy (List.mem_of_getElem? hm)] at hl
            exact absurd hl (by simp)
      | paired h => exact Stage.paired { h with aSide := h.aSide.lose hm hl }
      | half hc ho hw => exact absurd hm (by simp)

/-- `c` and `d` are the two ends of a session. -/
def Partners (own : Bool) (c d : DataChannel) : Prop := if own then Agree c d else Agree d c

/-- The answer to an open message. -/
def ackMessage (i : Nat) : Message :=
  { type := .Control, data := [MESSAGE_ACK], reliability := none, source := some i }

/-- What a message does that arrives at the acting side, and the stage behind it. -/
inductive Arrival (claimed : Nat → Prop) (own : Bool) (d? : Option DataChannel) (wc wd : List Message) :
    Option DataChannel → Message → Prop where
  /-- It opens a channel. -/
  | opens {d : DataChannel} {data : Bytes} (hown : own = false) (hd : d? = some d)
      (hclaim : ¬ claimed d.id) (hopened : d.opened = true) (hreceived : d.received = [])
      (hdata : OutgoingDataChannel.open d.mLabel d.mProtocol d.mReliability = .ok data)
      (next : ∀ (claimed' : Nat → Prop) (b : DataChannel), Agree d b → b.mSctpTransport = true →
        b.mIsOpen = true → b.mIsClosed = false → b.sent = [] → b.received = [] →
        Sees claimed' own (some b) d? (wc ++ [ackMessage b.id]) wd) :
      Arrival claimed own d? wc wd none (openMessage d data)
  /-- The channel is closed and ignores it. -/
  | ignored {c : DataChannel} {m : Message} (hclosed : c.mIsClosed = true) (hm : m.Plain)
      (next : Sees claimed own (some c) d? wc wd) : Arrival claimed own d? wc wd (some c) m
  /-- It has a content for the user. -/
  | content {c d : DataChannel} {m : Message} {x : Content} (hclosed : c.mIsClosed = false)
      (hx : m.content? = some x) (hd : d? = some d) (hpartners : Partners own c d)
      (hconveys : Conveys c.mReliability (c.received ++ [x]) d.sent)
      (next : Sees claimed own (some { c with received := c.received ++ [x] }) d? wc wd) :
      Arrival claimed own d? wc wd (some c) m
  /-- It is the answer to the open message. -/
  | ack {c : DataChannel} {m : Message} (hclosed : c.mIsClosed = false) (hm : m.isAck)
      (next : Sees claimed own (some { c with mIsOpen := true }) d? wc wd) :
      Arrival claimed own d? wc wd (some c) m
  /-- It is the reset of a channel that is closed here already. -/
  | reset {c : DataChannel} {i : Nat} (hclosed : c.mIsClosed = true)
      (next : Sees claimed own none d? wc wd) : Arrival claimed own d? wc wd (some c) (reset i)
  /-- It is the reset of a channel that is not closed here: nothing was cut off. -/
  | remoteClose {c d : DataChannel} {i : Nat} (hclosed : c.mIsClosed = false) (hd : d? = some d)
      (hpartners : Partners own c d) (hdclosed : d.mIsClosed = true) (htransport : c.mSctpTransport = true)
      (hflows : Flows c.mReliability c.received d.sent)
      (next : Sees claimed own none d? (wc ++ [Dcep.reset c.id]) wd) :
      Arrival claimed own d? wc wd (some c) (reset i)

theorem Paired.ack_mem {k : Nat} {m : Message} (h : Paired a b wa wb) (hm : wb[k]? = some m)
    (hx : m.content?.isSome = true) (ho : a.mIsOpen = false) (hc : a.mIsClosed = false) :
    ∃ x ∈ wb.eraseIdx k, x.isAck := by
  obtain ⟨x, hmem, hack⟩ := h.ack ho hc
  refine ⟨x, mem_eraseIdx_of_ne hmem hm ?_, hack⟩
  rintro rfl
  rw [isAck_content? hack] at hx
  exact absurd hx (by simp)

theorem Message.Plain.isAck {m : Message} (h : m.Plain) (hx : m.content? = none) : m.isAck := by
  rcases h with h | h
  · rw [hx] at h
    exact absurd h (by simp)
  · exact h.1

/-- A message arrives at the owner of a session that both ends know. -/
theorem Paired.arrival_owner {k : Nat} {m : Message} (h : Paired a b wa wb) (hm : wb[k]? = some m)
    (hk : arrives Message.isReset Message.unordered wb k = true) :
    Arrival claimed true (some b) wa (wb.eraseIdx k) (some a) m := by
  rcases h.bSide.cases hm hk with ⟨hitem, hord⟩ | ⟨rfl, hb, rfl, hw⟩
  · cases hc : a.mIsClosed with
    | true =>
        have hside := h.bSide
        rw [hc] at hside
        refine .ignored hc hitem.plain (Stage.paired { h with bSide := ?_, ack := ?_ })
        · rw [hc]
          exact hside.ignore hm hitem.plain.not_reset
        · intro _ hopen
          rw [hc] at hopen
          exact absurd hopen (by simp)
    | false =>
        have hside := h.bSide
        rw [hc] at hside
        cases hx : m.content? with
        | none =>
            refine .ack hc (hitem.plain.isAck hx) (Stage.paired { h with
              bSide := ?_, agree := { h.agree with }, ack := nofun })
            show Side _ _ _ _ a.mIsClosed _ _
            rw [hc]
            exact hside.deliver_ack hm hitem.plain.not_reset hx
        | some x =>
            have hside' := hside.deliver hm hitem hord hx
            refine .content hc hx rfl h.agree hside'.conveys (Stage.paired { h with
              bSide := ?_, agree := { h.agree with }, ack := ?_ })
            · show Side _ _ _ _ a.mIsClosed _ _
              rw [hc]
              exact hside'
            · exact h.ack_mem hm (by rw [hx]; rfl)
  · obtain rfl := hw
    cases hc : a.mIsClosed with
    | true =>
        have hside := h.aSide
        rw [hc] at hside
        exact .reset hc (Stage.pending (List.append_nil wa).symm ⟨hb, hside.closing⟩ rfl)
    | false =>
        have hside := h.aSide
        have hflows := h.bSide
        rw [hc] at hside hflows
        exact .remoteClose hc rfl h.agree hb h.aTransport (hflows.done rfl)
          (Stage.pending (List.append_nil _).symm ⟨hb, hside.close.closing⟩ rfl)

/-- A message arrives at the other end of a session that both ends know. -/
theorem Paired.arrival_other {k : Nat} {m : Message} (h : Paired a b wa wb) (hm : wa[k]? = some m)
    (hk : arrives Message.isReset Message.unordered wa k = true) :
    Arrival claimed false (some a) wb (wa.eraseIdx k) (some b) m := by
  rcases h.aSide.cases hm hk with ⟨hitem, hord⟩ | ⟨rfl, ha, rfl, hw⟩
  · cases hc : b.mIsClosed with
    | true =>
        have hside := h.aSide
        rw [hc] at hside
        refine .ignored hc hitem.plain (Stage.paired { h with aSide := ?_ })
        rw [hc]
        exact hside.ignore hm hitem.plain.not_reset
    | false =>
        have hside := h.aSide
        rw [hc] at hside
        cases hx : m.content? with
        | none =>
            refine .ack hc (hitem.plain.isAck hx) (Stage.paired { h with
              aSide := ?_, bOpen := rfl, agree := { h.agree with } })
            show Side _ _ _ _ b.mIsClosed _ _
            rw [hc]
            exact hside.deliver_ack hm hitem.plain.not_reset hx
        | some x =>
            have hside' := hside.deliver hm hitem hord hx
            refine .content hc hx rfl h.agree (h.agree.reliability ▸ hside'.conveys) (Stage.paired { h with
              aSide := ?_, agree := { h.agree with } })
            show Side _ _ _ _ b.mIsClosed _ _
            rw [hc]
            exact hside'
  · obtain rfl := hw
    cases hc : b.mIsClosed with
    | true =>
        have hside := h.bSide
        rw [hc] at hside
        exact .reset hc (Stage.half ha h.opened hside.closing)
    | false =>
        have hside := h.bSide
        have hflows := h.aSide
        rw [hc] at hside hflows
        exact .remoteClose hc rfl h.agree ha h.bTransport (h.agree.reliability ▸ hflows.done rfl)
          (Stage.half ha h.opened hside.close.closing)

/-- The open message arrives: nothing comes before it. -/
theorem Awaiting.arrival {k : Nat} {m : Message} (h : Awaiting a wa) (hclaim : ¬ claimed a.id)
    (hm : wa[k]? = some m) (hk : arrives Message.isReset Message.unordered wa k = true) :
    Arrival claimed false (some a) [] (wa.eraseIdx k) none m := by
  obtain ⟨htransport, hopen, hopened, hreceived, data, items, hdata, rfl, hitems, hsent⟩ := h
  have hordered : ∀ x ∈ items ++ (if a.mIsClosed then [reset a.id] else []), x.unordered = false := by
    intro x hx
    rcases List.mem_append.mp hx with hx | hx
    · simp [Message.unordered, (hitems x hx).2]
    · split at hx
      · rw [List.mem_singleton.mp hx]
        rfl
      · exact absurd hx (by simp)
  obtain rfl := arrives_head (x := openMessage a data) rfl hordered hk
  obtain rfl : openMessage a data = m := by simpa using hm
  refine .opens rfl rfl hclaim hopened hreceived hdata ?_
  intro claimed' b hagree hbt hbo hbc hbs hbr
  refine Stage.paired ⟨hopened, htransport, hbt, hbo, hagree, ⟨items, rfl, ?_, ?_⟩, ⟨[ackMessage b.id], ?_, ?_, ?_⟩,
    ?_⟩
  · intro x hx
    exact ⟨.inl (hitems x hx).1, .inl (hitems x hx).2⟩
  · intro _
    rw [hbr, List.nil_append, hsent]
    exact Flow.refl a.sent
  · rw [hbc]
    rfl
  · intro x hx
    rw [List.mem_singleton.mp hx]
    exact ⟨.inr ⟨⟨rfl, rfl⟩, rfl⟩, .inl rfl⟩
  · intro _
    rw [hreceived, hbs]
    exact Flow.refl []
  · intro _ _
    exact ⟨ackMessage b.id, by simp, rfl, rfl⟩

/-- **What arrives.** Whatever arrives at either end of a stream is what this end expects, and leads to a
    stage again. -/
theorem Sees.arrival {k : Nat} {m : Message} (h : Sees claimed own c? d? wc wd) (hm : wd[k]? = some m)
    (hk : arrives Message.isReset Message.unordered wd k = true) :
    Arrival claimed own d? wc (wd.eraseIdx k) c? m := by
  cases own with
  | true =>
      cases h with
      | pending hw hb ha => exact absurd hk arrives_nil
      | paired h => exact h.arrival_owner hm hk
      | half hc ho hw =>
          rw [← List.append_nil wd] at hm hk ⊢
          rcases hw.cases hm hk with ⟨hplain, w', hw', hclosing⟩ | ⟨i, rfl, hw'⟩
          · rw [hw', List.append_nil]
            exact .ignored hc hplain (Stage.half hc ho hclosing)
          · rw [hw']
            exact .reset hc (Stage.pending (List.append_nil []).symm rfl rfl)
  | false =>
      cases h with
      | @pending _ _ tail current _ hw hb ha =>
          cases c? with
          | none =>
              obtain rfl : tail = [] := hb
              obtain rfl : wd = current := hw
              cases d? with
              | none =>
                  obtain rfl : wd = [] := ha
                  exact absurd hk arrives_nil
              | some d =>
                  obtain ⟨hclaim, ⟨-, rfl⟩ | hawait⟩ := ha
                  · exact absurd hk arrives_nil
                  · exact hawait.arrival hclaim hm hk
          | some c =>
              rw [hw] at hm hk ⊢
              rcases hb.2.cases hm hk with ⟨hplain, w', hw', hclosing⟩ | ⟨i, rfl, hw'⟩
              · exact .ignored hb.1 hplain (Stage.pending hw' ⟨hb.1, hclosing⟩ ha)
              · rw [hw']
                exact .reset hb.1 (Stage.pending rfl rfl ha)
      | paired h => exact h.arrival_other hm hk
      | half hc ho hw => exact absurd hk arrives_nil

end HxDatachannel.Dcep
