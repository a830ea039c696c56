import HxDatachannel.Base.Link
import HxDatachannel.Base.Lts
import HxDatachannel.Dcep.Open
import Mathlib.Logic.Function.Basic

/-!
# `Dcep.Defs` — two peers and the streams between them

Each peer has data channels, a table from streams to channels and a list of channels that wait for a
stream. What a peer sends on a stream reaches the other peer over a `Link`: messages of an unordered
channel may be overtaken, messages of a channel with a limit may be lost, and a reset of the stream is a
barrier. A step is one call into a peer connection, one task of its processor, or one message that its
SCTP transport hands to `forwardMessage`; the steps of the two peers interleave freely.

The model is about the time while both SCTP transports are up. The fields that the source does not have
are bookkeeping: `id`, `opened`, `partner`, `sent` and `received` of a channel, `source` of a message and
`faults`.
-/

namespace HxDatachannel.Dcep

/-- `Description::Role` of the DTLS transport. One peer has each. -/
inductive Role where
  | Active
  | Passive
deriving DecidableEq, Repr

def Role.other : Role → Role
  | .Active  => .Passive
  | .Passive => .Active

/-- The parity of the streams that a peer picks. -/
def Role.parity : Role → Nat
  | .Active  => 0
  | .Passive => 1

/-- `Message::Type`, without the type `Message` of a media frame. -/
inductive MessageType where
  | Binary
  | String
  | Control
  | Reset
deriving DecidableEq, Repr

/-- A message on a stream. Without `reliability` it is reliable and ordered. `source` is the channel that
    sent it. -/
structure Message where
  type        : MessageType
  data        : Bytes
  reliability : Option Reliability
  source      : Option Nat
deriving DecidableEq, Repr

/-- A content: the type and the bytes of a message that a user sent. -/
abbrev Content := MessageType × Bytes

/-- `OutgoingDataChannel` and `IncomingDataChannel`. A channel is `destroyed` when nothing holds it any
    more: the table then holds a pointer that has expired. -/
structure DataChannel where
  id             : Nat
  outgoing       : Bool
  mLabel         : Bytes
  mProtocol      : Bytes
  mReliability   : Reliability
  mStream        : Option Nat
  mSctpTransport : Bool
  mIsOpen        : Bool
  mIsClosed      : Bool
  destroyed      : Bool
  opened         : Bool
  partner        : Option Nat
  sent           : List Content
  received       : List Content
deriving DecidableEq, Repr

/-- The part of a `PeerConnection` that is about data channels. `connected`: its SCTP transport is;
    `opening`: the task `openDataChannels` is queued. -/
structure Peer where
  channels               : Nat → Option DataChannel
  count                  : Nat
  mDataChannels          : Nat → Option Nat
  mUnassignedDataChannels : List Nat
  connected              : Bool
  opening                : Bool

/-- The branches of `forwardMessage` that answer a message the protocol does not allow. -/
inductive Fault where
  /-- "Got open message on already used stream". -/
  | usedStream (stream : Nat)
  /-- "Got open message violating the odd/even rule on stream". -/
  | oddEvenRule (stream : Nat)
  /-- "Got unexpected message on stream". -/
  | unexpected (stream : Nat)
  /-- `processOpenMessage` throws. -/
  | malformed (error : String)
deriving DecidableEq, Repr

structure Peers where
  peer   : Role → Peer
  wire   : Role → Nat → List Message
  faults : List Fault

/-- `maxStream` of the transports and `mMaxMessageSize` of each, which the C API sets only to a value that
    is not 0. -/
structure Config where
  maxStream       : Nat
  mMaxMessageSize : Role → Nat
  positive        : ∀ p, 0 < mMaxMessageSize p

/-- `PeerConnection::remoteMaxMessageSize`: the peer's description says what the peer's limit is, where 0
    stands for no limit. -/
def Config.remoteMaxMessageSize (cfg : Config) (p : Role) : Nat :=
  min (if 0 < cfg.mMaxMessageSize p.other then cfg.mMaxMessageSize p.other else 2 ^ 64 - 1)
    (cfg.mMaxMessageSize p)

def Peer.init : Peer :=
  { channels := fun _ => none, count := 0, mDataChannels := fun _ => none, mUnassignedDataChannels := [],
    connected := false, opening := false }

def Peers.init : Peers := { peer := fun _ => Peer.init, wire := fun _ _ => [], faults := [] }

/-! ## Messages -/

/-- `DataChannel::IsOpenMessage`. -/
def Message.isOpenMessage (m : Message) : Bool :=
  m.type = .Control && m.data.head? = some MESSAGE_OPEN

def Message.isReset (m : Message) : Bool := m.type = .Reset

/-- The message may arrive out of order. -/
def Message.unordered (m : Message) : Bool :=
  match m.reliability with
  | none   => false
  | some r => r.unordered

/-- The message may be lost: its reliability has a limit. -/
def Message.lossy (m : Message) : Bool :=
  match m.reliability with
  | none   => false
  | some r => r.maxPacketLifeTime.isSome || r.maxRetransmits.isSome

def Message.content? (m : Message) : Option Content :=
  if m.type = .String ∨ m.type = .Binary then some (m.type, m.data) else none

/-! ## Updates -/

def Peers.setPeer (σ : Peers) (p : Role) (P : Peer) : Peers := { σ with peer := Function.update σ.peer p P }

def Peer.setChannel (P : Peer) (i : Nat) (c : DataChannel) : Peer :=
  { P with channels := Function.update P.channels i (some c) }

def Peers.setChannel (σ : Peers) (p : Role) (i : Nat) (c : DataChannel) : Peers :=
  σ.setPeer p ((σ.peer p).setChannel i c)

def Peers.setWire (σ : Peers) (p : Role) (stream : Nat) (w : List Message) : Peers :=
  { σ with wire := Function.update σ.wire p (Function.update (σ.wire p) stream w) }

/-- What the transport of `p` accepts for a stream comes behind what it accepted before. -/
def Peers.transport (σ : Peers) (p : Role) (stream : Nat) (m : Message) : Peers :=
  σ.setWire p stream (σ.wire p stream ++ [m])

/-- The `k`-th message on a wire leaves it. -/
def Peers.take (σ : Peers) (p : Role) (stream k : Nat) : Peers :=
  σ.setWire p stream ((σ.wire p stream).eraseIdx k)

def Peers.fault (σ : Peers) (f : Fault) : Peers := { σ with faults := σ.faults ++ [f] }

/-- `SctpTransport::closeStream`. -/
def Peers.closeStream (σ : Peers) (p : Role) (stream : Nat) (source : Option Nat) : Peers :=
  σ.transport p stream { type := .Reset, data := [], reliability := none, source }

/-! ## Channels -/

/-- The constructor of `OutgoingDataChannel`. -/
def OutgoingDataChannel.make (id : Nat) (label protocol : Bytes) (reliability : Reliability) : DataChannel :=
  { id, outgoing := true, mLabel := label, mProtocol := protocol, mReliability := reliability,
    mStream := none, mSctpTransport := false, mIsOpen := false, mIsClosed := false, destroyed := false,
    opened := false, partner := none, sent := [], received := [] }

/-- The constructor of `IncomingDataChannel`, and `assignStream`. -/
def IncomingDataChannel.make (id stream : Nat) : DataChannel :=
  { id, outgoing := false, mLabel := [], mProtocol := [],
    mReliability := { unordered := false, maxPacketLifeTime := none, maxRetransmits := none },
    mStream := some stream, mSctpTransport := true, mIsOpen := false, mIsClosed := false,
    destroyed := false, opened := false, partner := none, sent := [], received := [] }

/-- `DataChannel::close` on channel `i` of peer `p`. -/
def Peers.close (σ : Peers) (p : Role) (i : Nat) : Peers :=
  match (σ.peer p).channels i with
  | none   => σ
  | some c =>
      if c.mIsClosed then σ
      else
        let σ := σ.setChannel p i { c with mIsClosed := true }
        match c.mSctpTransport, c.mStream with
        | true, some stream => σ.closeStream p stream (some i)
        | _, _              => σ

/-- The last pointer to channel `i` goes: the destructor closes it. -/
def Peers.destroy (σ : Peers) (p : Role) (i : Nat) : Peers :=
  let σ := σ.close p i
  match (σ.peer p).channels i with
  | none   => σ
  | some c => σ.setChannel p i { c with destroyed := true }

/-- `OutgoingDataChannel::open`, and `IncomingDataChannel::open`, which ignores the call. The second
    component is the exception. -/
def Peers.open (cfg : Config) (σ : Peers) (p : Role) (i : Nat) : Peers × Option String :=
  match (σ.peer p).channels i with
  | none   => (σ, none)
  | some c =>
      if !c.outgoing then (σ, none)
      else
        let c := { c with mSctpTransport := true }
        let σ := σ.setChannel p i c
        match c.mStream with
        | none        => (σ, some "DataChannel has no stream assigned")
        | some stream =>
            match OutgoingDataChannel.open c.mLabel c.mProtocol c.mReliability with
            | .error e => (σ, some e)
            | .ok data =>
                -- `SctpTransport::send` compares with the limit of this side
                if cfg.mMaxMessageSize p < data.length then (σ, some "Message is too large")
                else
                  let σ := σ.setChannel p i { c with opened := true }
                  (σ.transport p stream { type := .Control, data, reliability := none, source := some i },
                    none)

/-- `DataChannel::outgoing` with a message of the user. On an exception nothing changes. -/
def Peers.outgoing (cfg : Config) (σ : Peers) (p : Role) (i : Nat) (m : Content) :
    Except String Peers :=
  match (σ.peer p).channels i with
  | none   => .error "DataChannel is closed"
  | some c =>
      if c.mIsClosed then .error "DataChannel is closed"
      else if !c.mSctpTransport then .error "DataChannel not open"
      else
        match c.mStream with
        | none        => .error "DataChannel has no stream assigned"
        | some stream =>
            if cfg.remoteMaxMessageSize p < m.2.length then .error "Message size exceeds limit"
            else
              -- before the ACK all messages are sent ordered
              let σ := σ.setChannel p i { c with sent := c.sent ++ [m] }
              .ok (σ.transport p stream
                { type := m.1, data := m.2, reliability := if c.mIsOpen then some c.mReliability else none,
                  source := some i })

/-- `IncomingDataChannel::processOpenMessage` on channel `i`, which has a stream. An exception destroys
    the channel, as nothing but `forwardMessage` holds it. -/
def Peers.processOpenMessage (σ : Peers) (p : Role) (i : Nat) (m : Message) : Peers :=
  match (σ.peer p).channels i with
  | none   => σ
  | some c =>
      match c.mStream with
      | none        => (σ.fault (.malformed "DataChannel has no stream assigned")).destroy p i
      | some stream =>
          match IncomingDataChannel.processOpenMessage m.data with
          | .error e                             => (σ.fault (.malformed e)).destroy p i
          | .ok (mLabel, mProtocol, mReliability) =>
              let σ := σ.setChannel p i
                { c with mLabel, mProtocol, mReliability, mIsOpen := true, partner := m.source }
              σ.transport p stream
                { type := .Control, data := [MESSAGE_ACK], reliability := none, source := some i }

/-- `DataChannel::incoming` on channel `i`. -/
def Peers.incoming (σ : Peers) (p : Role) (i : Nat) (m : Message) : Peers :=
  match (σ.peer p).channels i with
  | none   => σ
  | some c =>
      if c.destroyed || c.mIsClosed then σ
      else
        match m.type with
        | .Control =>
            if m.data.head? = some MESSAGE_OPEN then
              -- a channel that was created here ignores the message
              if c.outgoing then σ else σ.processOpenMessage p i m
            else if m.data.head? = some MESSAGE_ACK then σ.setChannel p i { c with mIsOpen := true }
            else σ
        | .Reset   => σ.close p i
        | type     => σ.setChannel p i { c with received := c.received ++ [(type, m.data)] }

/-! ## Peer connections -/

/-- The loop of `assignDataChannels` that looks for a stream. `fuel` bounds the number of rounds. -/
def freeStream (mDataChannels : Nat → Option Nat) (maxStream : Nat) : Nat → Nat → Option Nat
  | 0, _             => none
  | fuel + 1, stream =>
      if maxStream < stream then none
      else if mDataChannels stream = none then some stream
      else freeStream mDataChannels maxStream fuel (stream + 2)

/-- `PeerConnection::assignDataChannels`. On an exception the list of unassigned channels stays. -/
def Peer.assignDataChannels (maxStream : Nat) (p : Role) : List Nat → Peer → Peer × Option String
  | [], P      => ({ P with mUnassignedDataChannels := [] }, none)
  | i :: is, P =>
      match P.channels i with
      | none   => P.assignDataChannels maxStream p is
      | some c =>
          if c.destroyed then P.assignDataChannels maxStream p is
          else
            match freeStream P.mDataChannels maxStream (maxStream + 1) p.parity with
            | none        => (P, some "Too many DataChannels")
            | some stream =>
                if c.mStream.isSome then (P, some "DataChannel already has a stream assigned")
                else
                  Peer.assignDataChannels maxStream p is
                    { P.setChannel i { c with mStream := some stream } with
                      mDataChannels := Function.update P.mDataChannels stream (some i) }

/-- A new channel, in the list of those that wait for a stream. -/
def Peer.waiting (P : Peer) (c : DataChannel) : Peer :=
  { P.setChannel P.count c with
    count := P.count + 1, mUnassignedDataChannels := P.mUnassignedDataChannels ++ [P.count] }

/-- A new channel, in the table. -/
def Peer.registered (P : Peer) (stream : Nat) (c : DataChannel) : Peer :=
  { P.setChannel P.count c with
    count := P.count + 1, mDataChannels := Function.update P.mDataChannels stream (some P.count) }

/-- `PeerConnection::emplaceDataChannel`, as the binding calls it: not negotiated, without a stream id. On
    an exception the caller gets no channel and the new one is destroyed. -/
def Peers.emplaceDataChannel (cfg : Config) (σ : Peers) (p : Role) (label protocol : Bytes)
    (reliability : Reliability) : Peers :=
  -- "Both maxPacketLifeTime and maxRetransmits are set"
  if reliability.maxPacketLifeTime.isSome && reliability.maxRetransmits.isSome then σ
  else
    let i := (σ.peer p).count
    let P := (σ.peer p).waiting (OutgoingDataChannel.make i label protocol reliability)
    if !P.connected then σ.setPeer p P
    else
      match P.assignDataChannels cfg.maxStream p P.mUnassignedDataChannels with
      | (P, some _) => (σ.setPeer p P).destroy p i
      | (P, none)   =>
          match (σ.setPeer p P).open cfg p i with
          | (σ, some _) => σ.destroy p i
          | (σ, none)   => σ

/-- The callback for `SctpTransport::State::Connected`. An exception leaves `openDataChannels` out. -/
def Peers.connected (cfg : Config) (σ : Peers) (p : Role) : Peers :=
  let P := { σ.peer p with connected := true }
  match P.assignDataChannels cfg.maxStream p P.mUnassignedDataChannels with
  | (P, some _) => σ.setPeer p P
  | (P, none)   => σ.setPeer p { P with opening := true }

/-- The round of `openDataChannels` for one stream. -/
def Peers.openAt (cfg : Config) (p : Role) (σ : Peers) (stream : Nat) : Peers :=
  match (σ.peer p).mDataChannels stream with
  | none   => σ
  | some i =>
      match (σ.peer p).channels i with
      | none   => σ
      | some c => if c.destroyed || c.mIsClosed || c.mIsOpen then σ else (σ.open cfg p i).1

/-- `PeerConnection::openDataChannels`. -/
def Peers.openDataChannels (cfg : Config) (σ : Peers) (p : Role) : Peers :=
  (List.range (cfg.maxStream + 1)).foldl (Peers.openAt cfg p) σ

/-- `PeerConnection::forwardMessage` for a message that the transport of `p` received on a stream. -/
def Peers.forwardMessage (σ : Peers) (p : Role) (stream : Nat) (m : Message) : Peers :=
  if m.isOpenMessage then
    match (σ.peer p).mDataChannels stream with
    | some i =>
        -- the stream is already used
        let σ := σ.fault (.usedStream stream)
        match (σ.peer p).channels i with
        | none   => σ.closeStream p stream none
        | some c => if c.destroyed || c.mIsClosed then σ.closeStream p stream none else σ.close p i
    | none   =>
        if stream % 2 ≠ p.other.parity then (σ.fault (.oddEvenRule stream)).closeStream p stream none
        else
          let i := (σ.peer p).count
          (σ.setPeer p ((σ.peer p).registered stream (IncomingDataChannel.make i stream))).incoming p i m
  else
    match (σ.peer p).mDataChannels stream with
    | none   =>
        if m.isReset then σ else (σ.fault (.unexpected stream)).closeStream p stream none
    | some i =>
        if m.isReset then
          let P := σ.peer p
          let σ := σ.setPeer p { P with mDataChannels := Function.update P.mDataChannels stream none }
          σ.incoming p i m
        else σ.incoming p i m

/-- `SctpTransport::doRecv`: a message longer than the limit of this side is cut. -/
def Message.truncate (m : Message) (mMaxMessageSize : Nat) : Message :=
  { m with data := m.data.take mMaxMessageSize }

/-! ## Steps -/

inductive Act where
  | emplaceDataChannel (p : Role) (label protocol : Bytes) (reliability : Reliability)
  | connected (p : Role)
  | openDataChannels (p : Role)
  /-- The user sends a text or bytes on channel `i`. -/
  | send (p : Role) (i : Nat) (text : Bool) (data : Bytes)
  | close (p : Role) (i : Nat)
  /-- The user lets go of channel `i`. -/
  | destroy (p : Role) (i : Nat)
  /-- The `k`-th message on the way to `p` on a stream arrives. -/
  | deliver (p : Role) (stream : Nat) (k : Nat)
  /-- The `k`-th message on the way to `p` on a stream is given up. -/
  | lose (p : Role) (stream : Nat) (k : Nat)
deriving DecidableEq, Repr

/-- One step of the two peers; `none` when it is not enabled. -/
def step (cfg : Config) (σ : Peers) : Act → Option Peers
  | .emplaceDataChannel p label protocol reliability =>
      some (σ.emplaceDataChannel cfg p label protocol reliability)
  | .connected p => if (σ.peer p).connected then none else some (σ.connected cfg p)
  | .openDataChannels p =>
      if (σ.peer p).opening then
        some ((σ.setPeer p { σ.peer p with opening := false }).openDataChannels cfg p)
      else none
  | .send p i text data =>
      match σ.outgoing cfg p i (if text then .String else .Binary, data) with
      | .error _ => some σ
      | .ok σ    => some σ
  | .close p i => some (σ.close p i)
  | .destroy p i => some (σ.destroy p i)
  | .deliver p stream k =>
      match (σ.wire p.other stream)[k]? with
      | none   => none
      | some m =>
          if (σ.peer p).connected &&
              Link.arrives Message.isReset Message.unordered (σ.wire p.other stream) k then
            some ((σ.take p.other stream k).forwardMessage p stream
              (m.truncate (cfg.mMaxMessageSize p)))
          else none
  | .lose p stream k =>
      match (σ.wire p.other stream)[k]? with
      | none   => none
      | some m => if m.lossy then some (σ.take p.other stream k) else none

end HxDatachannel.Dcep
