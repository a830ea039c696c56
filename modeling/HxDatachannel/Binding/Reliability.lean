import Mathlib.Data.List.Basic

/-!
# `Binding.Reliability` — the reliability of a channel, asked for, in force and reported

`createDatachannelWithOptions` takes two optional limits. They pass through the Haxe method, the C glue and
the C API of libdatachannel, of which the channel keeps one; the open message carries that one to the peer,
and both peers report a `RTCDataChannelReliability` in Haxe: the creator from what it was asked for, the
peer from what is in force. `reliability_reported` says for which options the two reports are true.
-/

namespace HxDatachannel

/-- Haxe `Int`, C `int` and `unsigned int`: conversions between them keep the bits. -/
abbrev Int32Bits := BitVec 32

/-! ## Native -/

/-- `rtc::Reliability`. -/
structure Reliability where
  unordered         : Bool
  maxPacketLifeTime : Option Int32Bits
  maxRetransmits    : Option Int32Bits
deriving DecidableEq, Repr

/-- `rtcReliability` of the C API. -/
structure RtcReliability where
  unordered         : Bool
  unreliable        : Bool
  maxPacketLifeTime : Int32Bits
  maxRetransmits    : Int32Bits
deriving DecidableEq, Repr

/-- `create_datachannel_ex`: the flags it fills in. -/
def create_datachannel_ex (unordered : Bool) (maxRetransmits maxLifetime : Int32Bits) :
    RtcReliability :=
  { unreliable := maxLifetime ≠ 0 ∨ maxRetransmits ≠ 0, unordered,
    maxPacketLifeTime := maxLifetime, maxRetransmits }

/-- `rtcCreateDataChannelEx`: the reliability of the channel it creates. -/
def rtcCreateDataChannelEx (init : RtcReliability) : Reliability :=
  if init.unreliable then
    if 0 < init.maxPacketLifeTime then
      { unordered := init.unordered, maxPacketLifeTime := some init.maxPacketLifeTime,
        maxRetransmits := none }
    else
      { unordered := init.unordered, maxPacketLifeTime := none,
        maxRetransmits := some init.maxRetransmits }
  else { unordered := init.unordered, maxPacketLifeTime := none, maxRetransmits := none }

/-- The fields of the open message about reliability. -/
structure OpenMessage where
  channelType          : BitVec 8
  reliabilityParameter : Int32Bits
deriving DecidableEq, Repr

def CHANNEL_RELIABLE : BitVec 8 := 0x00
def CHANNEL_PARTIAL_RELIABLE_REXMIT : BitVec 8 := 0x01
def CHANNEL_PARTIAL_RELIABLE_TIMED : BitVec 8 := 0x02

/-- `OutgoingDataChannel::open`: type and parameter of the open message, before the `unordered` bit. -/
def Reliability.channelType (r : Reliability) : BitVec 8 × Int32Bits :=
  match r.maxPacketLifeTime, r.maxRetransmits with
  | some l, _      => (CHANNEL_PARTIAL_RELIABLE_TIMED, l)
  | none, some n   => (CHANNEL_PARTIAL_RELIABLE_REXMIT, n)
  | none, none     => (CHANNEL_RELIABLE, 0)

/-- `OutgoingDataChannel::open`. -/
def Reliability.openMessage (r : Reliability) : OpenMessage :=
  { channelType := if r.unordered then r.channelType.1 ||| 0x80 else r.channelType.1,
    reliabilityParameter := r.channelType.2 }

/-- `IncomingDataChannel::processOpenMessage`. -/
def processOpenMessage (m : OpenMessage) : Reliability :=
  { unordered := m.channelType &&& 0x80 ≠ 0
    maxPacketLifeTime :=
      if m.channelType &&& 0x7F = CHANNEL_PARTIAL_RELIABLE_TIMED then some m.reliabilityParameter
      else none
    maxRetransmits :=
      if m.channelType &&& 0x7F = CHANNEL_PARTIAL_RELIABLE_REXMIT then some m.reliabilityParameter
      else none }

def rtcGetDataChannelReliability (r : Reliability) : RtcReliability :=
  match r.maxPacketLifeTime, r.maxRetransmits with
  | some l, _    => ⟨r.unordered, true, l, 0⟩
  | none, some n => ⟨r.unordered, true, 0, n⟩
  | none, none   => ⟨r.unordered, false, 0, 0⟩

/-! ## Haxe -/

inductive RTCDataChannelReliability where
  | Reliable
  | Unreliable (maxRetransmits maxLifetime : Int32Bits)
deriving DecidableEq, Repr

/-- The fields `unordered` and `reliability` of a wrapper. -/
structure RTCDataChannel where
  unordered   : Bool
  reliability : RTCDataChannelReliability
deriving DecidableEq, Repr

/-- `createDatachannelWithOptions`: the native channel and the wrapper. The native call gets the limits
    with `null` replaced by 0; the comparisons for the wrapper are made with the limits as given, and
    `null != 0` holds. Where an `Int` is expected, `null` becomes 0. -/
def createDatachannelWithOptions (unordered : Bool) (maxRetransmits maxLifetime : Option Int32Bits) :
    Reliability × RTCDataChannel :=
  let maxTransmits := maxRetransmits.getD 0
  let maxLifetimeVar := maxLifetime.getD 0
  -- the two variables are used for the native call only
  (rtcCreateDataChannelEx (create_datachannel_ex unordered maxTransmits maxLifetimeVar),
    { unordered,
      reliability :=
        if maxRetransmits ≠ some 0 ∨ maxLifetime ≠ some 0 then
          .Unreliable (maxRetransmits.getD 0) (maxLifetime.getD 0)
        else .Reliable })

/-- The `onDataChannel` closure: the wrapper made from `get_datachannel_reliability`. -/
def onDataChannelClosure (rel : RtcReliability) : RTCDataChannel :=
  { unordered := rel.unordered
    reliability :=
      if rel.maxRetransmits ≠ 0 ∨ rel.maxPacketLifeTime ≠ 0 then
        .Unreliable rel.maxRetransmits rel.maxPacketLifeTime
      else .Reliable }

/-- The wrapper of the channel at the peer. -/
def received (r : Reliability) : RTCDataChannel :=
  onDataChannelClosure (rtcGetDataChannelReliability (processOpenMessage r.openMessage))

/-! ## What a report means -/

/-- The channel is reliable: no limit is in force. -/
def Reliability.isReliable (r : Reliability) : Prop :=
  r.maxPacketLifeTime = none ∧ r.maxRetransmits = none

/-- A report denotes the reliability in force: the limit that is in force with its value, 0 for the one
    that is not. -/
def RTCDataChannelReliability.Denotes (report : RTCDataChannelReliability) (r : Reliability) : Prop :=
  match report with
  | .Reliable => r.isReliable
  | .Unreliable maxRetransmits maxLifetime =>
      ¬ r.isReliable ∧ r.maxRetransmits.getD 0 = maxRetransmits ∧
        r.maxPacketLifeTime.getD 0 = maxLifetime

/-! ## The peer reports what is in force -/

/-- **The open message is lossless** for a channel with at most one limit. -/
theorem processOpenMessage_openMessage (r : Reliability)
    (h : r.maxPacketLifeTime = none ∨ r.maxRetransmits = none) :
    processOpenMessage r.openMessage = r := by
  obtain ⟨unordered, life, count⟩ := r
  cases life with
  | some l =>
      obtain rfl : count = none := h.resolve_left (by simp)
      cases unordered <;>
        simp [processOpenMessage, Reliability.openMessage, Reliability.channelType,
          CHANNEL_PARTIAL_RELIABLE_TIMED, CHANNEL_PARTIAL_RELIABLE_REXMIT]
  | none =>
      -- type and parameter of the message are read back bit by bit
      cases count <;> cases unordered <;>
        simp [processOpenMessage, Reliability.openMessage, Reliability.channelType,
          CHANNEL_RELIABLE, CHANNEL_PARTIAL_RELIABLE_TIMED, CHANNEL_PARTIAL_RELIABLE_REXMIT]

/-- **What is in force**: the lifetime if it is not 0, else the retransmit count if that is not 0. -/
theorem rtcCreateDataChannelEx_eq (unordered : Bool) (r l : Int32Bits) :
    rtcCreateDataChannelEx (create_datachannel_ex unordered r l) =
      { unordered
        maxPacketLifeTime := if l = 0 then none else some l
        maxRetransmits := if l = 0 ∧ r ≠ 0 then some r else none } := by
  by_cases hl : l = 0
  · subst hl
    by_cases hr : r = 0#32 <;> simp [create_datachannel_ex, rtcCreateDataChannelEx, hr]
  · have hpos : 0 < l := by bv_omega
    rw [rtcCreateDataChannelEx, create_datachannel_ex]
    simp only [hl, hpos, ne_eq, not_false_eq_true, true_or, decide_true, if_true, if_false,
      false_and]

/-- **The peer's report is true.** -/
theorem received_denotes (r : Reliability) (h : r.maxPacketLifeTime = none ∨ r.maxRetransmits = none)
    (hl : r.maxPacketLifeTime ≠ some 0) (hn : r.maxRetransmits ≠ some 0) :
    (received r).reliability.Denotes r ∧ (received r).unordered = r.unordered := by
  rw [received, processOpenMessage_openMessage r h]
  obtain ⟨unordered, life, count⟩ := r
  cases life with
  | some l =>
      obtain rfl : count = none := h.resolve_left (by simp)
      have hl0 : l ≠ 0#32 := fun h0 => hl (congrArg some h0)
      simp [rtcGetDataChannelReliability, onDataChannelClosure, hl0,
        RTCDataChannelReliability.Denotes, Reliability.isReliable]
  | none =>
      cases count with
      | some n =>
          have hn0 : n ≠ 0#32 := fun h0 => hn (congrArg some h0)
          simp [rtcGetDataChannelReliability, onDataChannelClosure, hn0,
            RTCDataChannelReliability.Denotes, Reliability.isReliable]
      | none =>
          simp [rtcGetDataChannelReliability, onDataChannelClosure,
            RTCDataChannelReliability.Denotes, Reliability.isReliable]

/-- A report that denotes the reliability in force says `Reliable` iff the channel is. -/
theorem reliable_iff_of_denotes {report : RTCDataChannelReliability} {r : Reliability}
    (h : report.Denotes r) : report = .Reliable ↔ r.isReliable := by
  cases report with
  | Reliable => exact ⟨fun _ => h, fun _ => rfl⟩
  | Unreliable m l => exact ⟨fun he => absurd he (by simp), fun hr => absurd hr h.1⟩

/-! ## Both reports -/

/-- Both wrappers of a channel report its reliability in force and its order. -/
structure ReportedTruly (force : Reliability) (creator peer : RTCDataChannel) : Prop where
  creatorReport    : creator.reliability.Denotes force
  peerReport       : peer.reliability.Denotes force
  creatorUnordered : creator.unordered = force.unordered
  peerUnordered    : peer.unordered = force.unordered
  creatorReliable  : creator.reliability = .Reliable ↔ force.isReliable
  peerReliable     : peer.reliability = .Reliable ↔ force.isReliable

/-- The creator's report of limits `r` and `l` is true iff exactly one of them is not 0. -/
theorem unreliable_denotes_iff (unordered : Bool) (r l : Int32Bits) :
    (RTCDataChannelReliability.Unreliable r l).Denotes
      (rtcCreateDataChannelEx (create_datachannel_ex unordered r l)) ↔
      (r ≠ 0 ∧ l = 0) ∨ (r = 0 ∧ l ≠ 0) := by
  rw [rtcCreateDataChannelEx_eq]
  by_cases hl : l = 0#32
  · by_cases hr : r = 0#32 <;>
      simp [RTCDataChannelReliability.Denotes, Reliability.isReliable, hl, hr]
  · simp [RTCDataChannelReliability.Denotes, Reliability.isReliable, hl]
    exact eq_comm

theorem creator_denotes_iff (unordered : Bool) (maxRetransmits maxLifetime : Option Int32Bits) :
    (createDatachannelWithOptions unordered maxRetransmits maxLifetime).2.reliability.Denotes
      (createDatachannelWithOptions unordered maxRetransmits maxLifetime).1 ↔
    (maxRetransmits = some 0 ∧ maxLifetime = some 0) ∨
      (maxRetransmits.getD 0 ≠ 0 ∧ maxLifetime.getD 0 = 0) ∨
      (maxRetransmits.getD 0 = 0 ∧ maxLifetime.getD 0 ≠ 0) := by
  by_cases hzero : maxRetransmits = some 0 ∧ maxLifetime = some 0
  · obtain ⟨rfl, rfl⟩ := hzero
    refine ⟨fun _ => .inl ⟨rfl, rfl⟩, ?_⟩
    intro _
    simp [createDatachannelWithOptions, rtcCreateDataChannelEx_eq,
      RTCDataChannelReliability.Denotes, Reliability.isReliable]
  · have hne : maxRetransmits ≠ some 0 ∨ maxLifetime ≠ some 0 := by
      by_contra h
      simp only [not_or, not_not] at h
      exact hzero h
    simp only [createDatachannelWithOptions, if_pos hne]
    rw [unreliable_denotes_iff]
    exact ⟨.inr, fun h => h.resolve_left hzero⟩

/-- **When both peers report what is in force.** They do, with the same `unordered`, iff both limits are
    given as 0, or exactly one of them (`null` counting as 0) is not 0. -/
theorem reliability_reported (unordered : Bool) (maxRetransmits maxLifetime : Option Int32Bits) :
    ReportedTruly (createDatachannelWithOptions unordered maxRetransmits maxLifetime).1
      (createDatachannelWithOptions unordered maxRetransmits maxLifetime).2
      (received (createDatachannelWithOptions unordered maxRetransmits maxLifetime).1) ↔
    (maxRetransmits = some 0 ∧ maxLifetime = some 0) ∨
      (maxRetransmits.getD 0 ≠ 0 ∧ maxLifetime.getD 0 = 0) ∨
      (maxRetransmits.getD 0 = 0 ∧ maxLifetime.getD 0 ≠ 0) := by
  rw [← creator_denotes_iff unordered]
  refine ⟨fun h => h.creatorReport, ?_⟩
  intro hcreator
  have hnative : (createDatachannelWithOptions unordered maxRetransmits maxLifetime).1 =
      rtcCreateDataChannelEx (create_datachannel_ex unordered (maxRetransmits.getD 0)
        (maxLifetime.getD 0)) := rfl
  obtain ⟨hpeer, hpeerUnordered⟩ := received_denotes
    (createDatachannelWithOptions unordered maxRetransmits maxLifetime).1
    (by rw [hnative, rtcCreateDataChannelEx_eq]; split <;> simp_all)
    (by rw [hnative, rtcCreateDataChannelEx_eq]; split <;> simp_all)
    (by rw [hnative, rtcCreateDataChannelEx_eq]; simp only; split <;> simp_all)
  refine ⟨hcreator, hpeer, ?_, hpeerUnordered, reliable_iff_of_denotes hcreator,
    reliable_iff_of_denotes hpeer⟩
  rw [hnative, rtcCreateDataChannelEx_eq]
  rfl

/-- **False reports.** With both limits `null` the channel is reliable and its creator reports
    `Unreliable(0, 0)`; with both positive only the lifetime is in force and its creator reports both. -/
theorem reliability_misreported :
    (createDatachannelWithOptions false none none).1 = ⟨false, none, none⟩ ∧
    (createDatachannelWithOptions false none none).2.reliability = .Unreliable 0 0 ∧
    (received (createDatachannelWithOptions false none none).1).reliability = .Reliable ∧
    (createDatachannelWithOptions false (some 3) (some 500)).1 = ⟨false, some 500, none⟩ ∧
    (createDatachannelWithOptions false (some 3) (some 500)).2.reliability = .Unreliable 3 500 ∧
    (received (createDatachannelWithOptions false (some 3) (some 500)).1).reliability
      = .Unreliable 0 500 := by
  decide

end HxDatachannel
