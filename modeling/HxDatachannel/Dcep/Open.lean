import HxDatachannel.Base.BigEndian
import HxDatachannel.Binding.CallbackResult
import HxDatachannel.Binding.Reliability

/-!
# `Dcep.Open` — the open message as bytes

An outgoing channel announces itself to the peer with one control message: a packed header of twelve
bytes in network order, the label and the protocol. `OutgoingDataChannel.open` writes it and
`IncomingDataChannel.processOpenMessage` reads it. `open_received` says what a peer makes of the message
when its transport keeps only a first part of it.
-/

namespace HxDatachannel.Dcep

open BigEndian

def MESSAGE_ACK : UInt8 := 0x02
def MESSAGE_OPEN : UInt8 := 0x03

/-- `sizeof(OpenMessage)`, packed. -/
def sizeofOpenMessage : Nat := 12

/-- `to_uint16`. -/
def to_uint16 (i : Nat) : Except String Nat :=
  if i ≤ 65535 then .ok i else .error "Integer out of range"

/-- The header: `type`, `channelType`, `priority`, `reliabilityParameter`, `labelLength`,
    `protocolLength`. -/
def header (type : UInt8) (priority : Nat) (m : OpenMessage) (labelLength protocolLength : Nat) : Bytes :=
  type :: UInt8.ofBitVec m.channelType :: (encode 2 priority ++ encode 4 m.reliabilityParameter.toNat ++
    encode 2 labelLength ++ encode 2 protocolLength)

/-- The message that `OutgoingDataChannel::open` sends. -/
def OutgoingDataChannel.open (mLabel mProtocol : Bytes) (mReliability : Reliability) :
    Except String Bytes := do
  let labelLength ← to_uint16 mLabel.length
  let protocolLength ← to_uint16 mProtocol.length
  return header MESSAGE_OPEN 0 mReliability.openMessage labelLength protocolLength ++ mLabel ++ mProtocol

/-- `IncomingDataChannel::processOpenMessage`: label, protocol and reliability, from the bytes of the
    message. Its `type` was looked at by `IsOpenMessage` and its `priority` is not used. -/
def IncomingDataChannel.processOpenMessage (message : Bytes) :
    Except String (Bytes × Bytes × Reliability) :=
  match message with
  | _ :: channelType :: _ :: _ :: r₀ :: r₁ :: r₂ :: r₃ :: l₀ :: l₁ :: p₀ :: p₁ :: payload =>
      let labelLength := decode [l₀, l₁]
      let protocolLength := decode [p₀, p₁]
      if payload.length < labelLength + protocolLength then
        .error "DataChannel open message truncated"
      else
        .ok (payload.take labelLength, (payload.drop labelLength).take protocolLength,
          HxDatachannel.processOpenMessage
            { channelType := channelType.toBitVec,
              reliabilityParameter := BitVec.ofNat 32 (decode [r₀, r₁, r₂, r₃]) })
  | _ => .error "DataChannel open message too small"

/-! ## What is written -/

@[simp] theorem header_length (type : UInt8) (priority : Nat) (m : OpenMessage) (l p : Nat) :
    (header type priority m l p).length = sizeofOpenMessage := by
  simp [header, sizeofOpenMessage]

theorem bind_eq_ok {α β : Type} {x : Except String α} {f : α → Except String β} {b : β} :
    (x >>= f) = .ok b ↔ ∃ a, x = .ok a ∧ f a = .ok b := by
  cases x with
  | error _ => exact iff_of_false (by nofun) (fun ⟨_, h, _⟩ => by cases h)
  | ok a =>
      constructor
      · intro h
        exact ⟨a, rfl, h⟩
      · rintro ⟨a', h, h'⟩
        obtain rfl := Except.ok.inj h
        exact h'

theorem to_uint16_eq_ok {i n : Nat} : to_uint16 i = .ok n ↔ i ≤ 65535 ∧ i = n := by
  unfold to_uint16
  split
  · rename_i hle
    simp [hle]
  · rename_i hgt
    simp [hgt]

/-- The message exists iff both lengths fit in sixteen bits. -/
theorem open_eq_ok {l p b : Bytes} {r : Reliability} :
    OutgoingDataChannel.open l p r = .ok b ↔
      l.length ≤ 65535 ∧ p.length ≤ 65535 ∧ b = header MESSAGE_OPEN 0 r.openMessage l.length p.length ++ l ++ p := by
  constructor
  · intro h
    obtain ⟨n, hn, h⟩ := bind_eq_ok.mp h
    obtain ⟨k, hk, h⟩ := bind_eq_ok.mp h
    obtain ⟨hl, rfl⟩ := to_uint16_eq_ok.mp hn
    obtain ⟨hp, rfl⟩ := to_uint16_eq_ok.mp hk
    exact ⟨hl, hp, (Except.ok.inj h).symm⟩
  · rintro ⟨hl, hp, rfl⟩
    rw [OutgoingDataChannel.open, to_uint16_eq_ok.mpr ⟨hl, rfl⟩, to_uint16_eq_ok.mpr ⟨hp, rfl⟩]
    rfl

/-! ## What is read -/

/-- The header of a message is read back, whatever follows it. -/
theorem processOpenMessage_header (type : UInt8) (priority : Nat) (m : OpenMessage) {l p : Nat}
    (hl : l ≤ 65535) (hp : p ≤ 65535) (payload : Bytes) :
    IncomingDataChannel.processOpenMessage (header type priority m l p ++ payload) =
      if payload.length < l + p then .error "DataChannel open message truncated"
      else .ok (payload.take l, (payload.drop l).take p, HxDatachannel.processOpenMessage m) := by
  have hl' : decode (encode 2 l) = l := decode_encode_of_lt (by omega)
  have hp' : decode (encode 2 p) = p := decode_encode_of_lt (by omega)
  have hr' : decode (encode 4 m.reliabilityParameter.toNat) = m.reliabilityParameter.toNat :=
    decode_encode_of_lt m.reliabilityParameter.isLt
  simp only [encode] at hl' hp' hr'
  simp only [header, encode, List.cons_append, List.nil_append, IncomingDataChannel.processOpenMessage,
    hl', hp', hr', BitVec.ofNat_toNat, BitVec.setWidth_eq]

/-- Fewer than twelve bytes are too small. -/
theorem processOpenMessage_small {message : Bytes} (h : message.length < sizeofOpenMessage) :
    IncomingDataChannel.processOpenMessage message = .error "DataChannel open message too small" := by
  unfold IncomingDataChannel.processOpenMessage
  split
  · simp [sizeofOpenMessage] at h
    omega
  · rfl

/-- What is accepted begins with a header. -/
theorem eq_header {message : Bytes} {x : Bytes × Bytes × Reliability}
    (h : IncomingDataChannel.processOpenMessage message = .ok x) :
    ∃ (type : UInt8) (priority : Nat) (m : OpenMessage) (l p : Nat) (payload : Bytes),
      l ≤ 65535 ∧ p ≤ 65535 ∧ message = header type priority m l p ++ payload := by
  unfold IncomingDataChannel.processOpenMessage at h
  split at h
  · rename_i type ct q₀ q₁ r₀ r₁ r₂ r₃ l₀ l₁ p₀ p₁ payload
    have hl := decode_lt [l₀, l₁]
    have hp := decode_lt [p₀, p₁]
    have hr := decode_lt [r₀, r₁, r₂, r₃]
    have hq' := encode_decode [q₀, q₁]
    have hl' := encode_decode [l₀, l₁]
    have hp' := encode_decode [p₀, p₁]
    have hr' := encode_decode [r₀, r₁, r₂, r₃]
    simp only [List.length_cons, List.length_nil, Nat.zero_add, Nat.reduceAdd, Nat.reducePow]
      at hl hp hr hq' hl' hp' hr'
    refine ⟨type, decode [q₀, q₁], ⟨ct.toBitVec, BitVec.ofNat 32 (decode [r₀, r₁, r₂, r₃])⟩,
      decode [l₀, l₁], decode [p₀, p₁], payload, by omega, by omega, ?_⟩
    rw [header, BitVec.toNat_ofNat, Nat.mod_eq_of_lt (by omega), hq', hr', hl', hp']
    rfl
  · cases h

/-- All of the message is read back. -/
theorem processOpenMessage_whole {l p : Bytes} {r : Reliability}
    (hr : r.maxPacketLifeTime = none ∨ r.maxRetransmits = none) (hl : l.length ≤ 65535) (hp : p.length ≤ 65535) :
    IncomingDataChannel.processOpenMessage (header MESSAGE_OPEN 0 r.openMessage l.length p.length ++ (l ++ p)) =
      .ok (l, p, r) := by
  rw [processOpenMessage_header _ _ _ hl hp, if_neg (by rw [List.length_append]; omega), List.take_left,
    List.drop_left, List.take_length, processOpenMessage_openMessage r hr]

/-- **The open message at the peer.** Of the message that opens a channel the peer reads label, protocol
    and reliability as they are at the sender, if it gets all of it. If it gets a first part only, it
    says so and no channel opens. -/
theorem open_received {l p b : Bytes} {r : Reliability}
    (hr : r.maxPacketLifeTime = none ∨ r.maxRetransmits = none)
    (h : OutgoingDataChannel.open l p r = .ok b) (n : Nat) :
    IncomingDataChannel.processOpenMessage (b.take n) =
      if b.length ≤ n then .ok (l, p, r)
      else if n < sizeofOpenMessage then .error "DataChannel open message too small"
      else .error "DataChannel open message truncated" := by
  obtain ⟨hl, hp, rfl⟩ := open_eq_ok.mp h
  have hlen : (header MESSAGE_OPEN 0 r.openMessage l.length p.length ++ l ++ p).length =
      sizeofOpenMessage + (l.length + p.length) := by
    rw [List.append_assoc, List.length_append, header_length, List.length_append]
  rw [hlen]
  by_cases hsmall : n < sizeofOpenMessage
  · rw [if_neg (by omega), if_pos hsmall, processOpenMessage_small]
    rw [List.length_take]
    omega
  · -- the header is complete: what is missing is missing behind it
    have htake : (header MESSAGE_OPEN 0 r.openMessage l.length p.length ++ l ++ p).take n =
        header MESSAGE_OPEN 0 r.openMessage l.length p.length ++ (l ++ p).take (n - sizeofOpenMessage) := by
      rw [List.append_assoc, List.take_append, header_length, List.take_of_length_le]
      rw [header_length]
      omega
    rw [htake, if_neg hsmall]
    by_cases hall : sizeofOpenMessage + (l.length + p.length) ≤ n
    · have hkeep : (l ++ p).take (n - sizeofOpenMessage) = l ++ p :=
        List.take_of_length_le (by rw [List.length_append]; omega)
      rw [if_pos hall, hkeep, processOpenMessage_whole hr hl hp]
    · rw [if_neg hall, processOpenMessage_header _ _ _ hl hp, if_pos]
      rw [List.length_take, List.length_append]
      omega

theorem open_received_cut :
    IncomingDataChannel.processOpenMessage ((header MESSAGE_OPEN 0 ⟨0x81, 3⟩ 1 0 ++ [97]).take 12)
      = .error "DataChannel open message truncated" :=
  open_received (l := [97]) (p := []) (r := ⟨true, none, some 3⟩) (.inl rfl) rfl 12

/-- **What is accepted is well formed.** A message opens a channel iff it is a header, a label and a
    protocol of the lengths that the header says, and anything behind them. -/
theorem processOpenMessage_eq_ok {message l p : Bytes} {r : Reliability} :
    IncomingDataChannel.processOpenMessage message = .ok (l, p, r) ↔
      ∃ (type : UInt8) (priority : Nat) (m : OpenMessage) (rest : Bytes),
        message = header type priority m l.length p.length ++ (l ++ p ++ rest) ∧
        l.length ≤ 65535 ∧ p.length ≤ 65535 ∧ r = HxDatachannel.processOpenMessage m := by
  constructor
  · intro h
    obtain ⟨type, priority, m, ll, pl, payload, hll, hpl, rfl⟩ := eq_header h
    rw [processOpenMessage_header _ _ _ hll hpl] at h
    by_cases hshort : payload.length < ll + pl
    · rw [if_pos hshort] at h
      cases h
    · rw [if_neg hshort] at h
      simp only [Except.ok.injEq, Prod.mk.injEq] at h
      obtain ⟨rfl, rfl, rfl⟩ := h
      have hl : (payload.take ll).length = ll := by rw [List.length_take]; omega
      have hp : ((payload.drop ll).take pl).length = pl := by
        rw [List.length_take, List.length_drop]
        omega
      refine ⟨type, priority, m, (payload.drop ll).drop pl, ?_, by omega, by omega, rfl⟩
      rw [hl, hp, List.append_assoc, List.take_append_drop, List.take_append_drop]
  · rintro ⟨type, priority, m, rest, rfl, hl, hp, rfl⟩
    rw [processOpenMessage_header _ _ _ hl hp, if_neg (by simp only [List.length_append]; omega),
      List.append_assoc, List.take_left, List.drop_left, List.take_left]

end HxDatachannel.Dcep
