import HxDatachannel.Base.Fifo
import HxDatachannel.Dcep.Defs

/-!
# `Sctp.Defs` — the SCTP transport

`SctpTransport` stands between the data channels and a socket of usrsctp. Messages that the socket does
not take at once wait in `mSendQueue`; what waits is counted for each stream, and the channel of the stream
hears of every change. On the other side the transport puts messages and notifications together from the
chunks that it reads, and hands them on.

A step is a call of a channel, a task of the processor, an upcall of usrsctp or chunks that arrive in the
socket. What usrsctp answers to the calls of a step comes with the step. `calls`, `read`, `received`,
`mDropped`, `refused` and `early` are bookkeeping, and so are the counts `low` and `rises` of a channel.
-/

namespace HxDatachannel.Sctp

abbrev MessageType := Dcep.MessageType
abbrev Message := Dcep.Message
abbrev Content := Dcep.Content

/-- `Transport::State`. -/
inductive State where
  | Disconnected
  | Connecting
  | Connected
  | Completed
  | Failed
deriving DecidableEq, Repr

/-- `PayloadId`. -/
def PPID_CONTROL : Nat := 50
def PPID_STRING : Nat := 51
def PPID_BINARY_PARTIAL : Nat := 52
def PPID_BINARY : Nat := 53
def PPID_STRING_PARTIAL : Nat := 54
def PPID_STRING_EMPTY : Nat := 56
def PPID_BINARY_EMPTY : Nat := 57

/-- The `errno` of a call that failed, as far as the transport looks at it. `EWOULDBLOCK` is `EAGAIN`. -/
inductive Errno where
  | EAGAIN
  | ENOTCONN
  | other (errno : Nat)
deriving DecidableEq, Repr

inductive Exception where
  | invalid_argument (what : String)
  | runtime_error (what : String) (errno : Errno)
deriving DecidableEq, Repr

/-- A `message_ptr` on its way down, with its `stream`. -/
structure Outgoing where
  stream  : Nat
  message : Message
deriving DecidableEq, Repr

/-- `pr_policy` with `pr_value`. -/
inductive Policy where
  | SCTP_PR_SCTP_NONE
  | SCTP_PR_SCTP_TTL (value : Int32Bits)
  | SCTP_PR_SCTP_RTX (value : Int32Bits)
deriving DecidableEq, Repr

/-- What `usrsctp_sendv` is called with. -/
structure Datagram where
  sid       : Nat
  ppid      : Nat
  unordered : Bool
  policy    : Policy
  data      : Bytes
deriving DecidableEq, Repr

/-- What the socket took, and the calls that shut it down. -/
inductive Call where
  | sendv (d : Datagram)
  | resetStreams (sid : Nat)
  | shutdown (rdwr : Bool)
deriving DecidableEq, Repr

/-- What one `usrsctp_recvv` reads: `notification` and `eor` are its flags, `info` is there when
    `infotype` is `SCTP_RECVV_RCVINFO`. No data at all stands for the end of the stream. -/
structure Chunk where
  data         : Bytes
  notification : Bool
  eor          : Bool
  info         : Option (Nat × Nat)
deriving DecidableEq, Repr

/-- `union sctp_notification`, as far as the transport looks at it. -/
inductive Event where
  /-- `SCTP_ASSOC_CHANGE`: `SCTP_COMM_UP` with the numbers of streams, or something else. -/
  | assocChange (up : Option (Nat × Nat))
  | senderDry
  | streamReset (incoming : Bool) (streams : List Nat)
  | other
deriving DecidableEq, Repr

structure Notification where
  sn_length : Nat
  event     : Event
deriving DecidableEq, Repr

/-- The number in `n` bytes at an offset, on a little-endian machine. -/
def field (n : Nat) (data : Bytes) (offset : Nat) : Nat := BigEndian.decode ((data.drop offset).take n).reverse

/-- The cast of bytes to `union sctp_notification`, on a little-endian machine. -/
def littleEndian (data : Bytes) : Notification :=
  let sn_type := field 2 data 0
  let sn_flags := field 2 data 2
  let sn_length := field 4 data 4
  { sn_length,
    event :=
      if sn_type = 0x0001 then
        .assocChange (if field 2 data 8 = 1 then some (field 2 data 14, field 2 data 12) else none)
      else if sn_type = 0x000a then .senderDry
      else if sn_type = 0x0009 then
        .streamReset (sn_flags % 2 = 1) ((List.range ((sn_length - 12) / 2)).map fun i => field 2 data (12 + 2 * i))
      else .other }

/-- The tasks of `mProcessor`. -/
inductive Task where
  | doRecv
  | doFlush
  | flush
deriving DecidableEq, Repr

/-- The part of `Channel` that is about the buffered amount. `low` counts the calls of
    `bufferedAmountLowCallback`, `rises` the reports that took the amount above the threshold. -/
structure Channel where
  bufferedAmount             : Nat
  bufferedAmountLowThreshold : Nat
  reported                   : Bool
  low                        : Nat
  rises                      : Nat
deriving DecidableEq, Repr

/-- `mMaxMessageSize`, and the cast of bytes to `union sctp_notification`, which depends on the machine. -/
structure Config where
  mMaxMessageSize : Nat
  notification    : Bytes → Notification

structure Transport where
  mState                 : State
  mSendQueue             : Fifo Outgoing
  mStopping              : Bool
  mSendShutdown          : Bool
  mBufferedAmount        : Nat → Nat
  mBytesSent             : Nat
  mPartialMessage        : Bytes
  mPartialNotification   : Bytes
  mPartialStringData     : Bytes
  mPartialBinaryData     : Bytes
  mBytesReceived         : Nat
  mNegotiatedStreamsCount : Option Nat
  mPendingRecvCount      : Nat
  mPendingFlushCount     : Nat
  mProcessor             : List Task
  channels               : Nat → Option Channel
  /-- What the socket answers to the calls to come, `EAGAIN` when it has said all. -/
  answers                : List (Option Errno)
  calls                  : List Call
  inbox                  : List Chunk
  /-- What was read from the socket. -/
  read                   : List Chunk
  /-- What `recv` handed on; `none` is `nullptr`. -/
  received               : List (Option (Nat × Content))
  /-- What was pushed on the stopped queue. -/
  mDropped               : List Outgoing
  /-- The socket did not take the last message. -/
  refused                : Bool
  /-- Something was queued, or the queue stopped, before the association came up. -/
  early                  : Bool

def Transport.init : Transport :=
  { mState := .Disconnected, mSendQueue := .empty, mStopping := false, mSendShutdown := false,
    mBufferedAmount := fun _ => 0, mBytesSent := 0, mPartialMessage := [], mPartialNotification := [],
    mPartialStringData := [], mPartialBinaryData := [], mBytesReceived := 0,
    mNegotiatedStreamsCount := none, mPendingRecvCount := 0, mPendingFlushCount := 0, mProcessor := [],
    channels := fun _ => none, answers := [], calls := [], inbox := [], read := [], received := [], mDropped := [],
    refused := false, early := false }

/-! ## Messages -/

/-- `message_size_func`. -/
def message_size_func (m : Message) : Nat :=
  if m.type = .Binary ∨ m.type = .String then m.data.length else 0

/-- The `ppid` of a message, which a reset does not have. -/
def ppid (m : Message) : Option Nat :=
  match m.type with
  | .String  => some (if m.data ≠ [] then PPID_STRING else PPID_STRING_EMPTY)
  | .Binary  => some (if m.data ≠ [] then PPID_BINARY else PPID_BINARY_EMPTY)
  | .Control => some PPID_CONTROL
  | .Reset   => none

/-- `pr_policy`: the lifetime counts before the retransmissions. -/
def policy (reliability : Option Reliability) : Policy :=
  match reliability with
  | none   => .SCTP_PR_SCTP_NONE
  | some r =>
      match r.maxPacketLifeTime, r.maxRetransmits with
      | some ms, _      => .SCTP_PR_SCTP_TTL ms
      | none, some n    => .SCTP_PR_SCTP_RTX n
      | none, none      => .SCTP_PR_SCTP_NONE

/-- The datagram of a message that has a `ppid`. An empty message goes as one byte. -/
def Outgoing.datagram (m : Outgoing) (ppid : Nat) : Datagram :=
  { sid := m.stream, ppid, unordered := m.message.unordered, policy := policy m.message.reliability,
    data := if m.message.data ≠ [] then m.message.data else [0] }

/-! ## The layers above and below -/

/-- `Transport::recv`. -/
def Transport.recv (σ : Transport) (message : Option (Nat × Content)) : Transport :=
  { σ with received := σ.received ++ [message] }

/-- `Transport::changeState`. -/
def Transport.changeState (σ : Transport) (state : State) : Transport := { σ with mState := state }

/-- The answer of the socket to the next call. -/
def Transport.answer (σ : Transport) : Option Errno × Transport :=
  match σ.answers with
  | []      => (some .EAGAIN, σ)
  | a :: as => (a, { σ with answers := as })

/-- `Channel::triggerBufferedAmount`. -/
def Channel.triggerBufferedAmount (c : Channel) (amount : Nat) : Channel :=
  { c with
    bufferedAmount := amount
    reported := true
    low :=
      if c.bufferedAmount > c.bufferedAmountLowThreshold ∧ amount ≤ c.bufferedAmountLowThreshold then c.low + 1
      else c.low
    rises :=
      if c.bufferedAmount ≤ c.bufferedAmountLowThreshold ∧ amount > c.bufferedAmountLowThreshold then c.rises + 1
      else c.rises }

/-- `mBufferedAmountCallback`: `PeerConnection::forwardBufferedAmount`. -/
def Transport.triggerBufferedAmount (σ : Transport) (streamId amount : Nat) : Transport :=
  match σ.channels streamId with
  | none   => σ
  | some c => { σ with channels := Function.update σ.channels streamId (some (c.triggerBufferedAmount amount)) }

/-- A stream without an entry in `mBufferedAmount` has the amount 0. -/
def Transport.updateBufferedAmount (σ : Transport) (streamId : Nat) (delta : Int) : Transport :=
  if delta = 0 then σ
  else
    let amount := (max (σ.mBufferedAmount streamId + delta) 0).toNat
    let σ := { σ with mBufferedAmount := Function.update σ.mBufferedAmount streamId amount }
    σ.triggerBufferedAmount streamId amount

/-! ## Sending -/

/-- `mSendQueue.push`. -/
def Transport.push (σ : Transport) (m : Outgoing) : Transport :=
  if σ.mStopping then { σ with mDropped := σ.mDropped ++ [m] }
  else { σ with mSendQueue := σ.mSendQueue.push m }

/-- `mSendQueue.pop`. -/
def Transport.pop (σ : Transport) : Transport :=
  match σ.mSendQueue.pop with
  | none        => σ
  | some (_, q) => { σ with mSendQueue := q }

/-- `mSendQueue.running`. -/
def Transport.running (σ : Transport) : Bool := !σ.mSendQueue.queue.isEmpty || !σ.mStopping

/-- `sendReset`: what `usrsctp_setsockopt` answers is only logged. -/
def Transport.sendReset (σ : Transport) (streamId : Nat) : Transport :=
  if σ.mState ≠ .Connected then σ
  else { σ with calls := σ.calls ++ [.resetStreams streamId] }

def Transport.trySendMessage (σ : Transport) (m : Outgoing) : Transport × Except Exception Bool :=
  if σ.mState ≠ .Connected then (σ, .ok false)
  else
    match ppid m.message with
    | none      => (σ.sendReset m.stream, .ok true)
    | some ppid =>
        match σ.answer with
        | (none, σ)         =>
            ({ σ with
                calls := σ.calls ++ [.sendv (m.datagram ppid)]
                refused := false
                mBytesSent := σ.mBytesSent + message_size_func m.message }, .ok true)
        | (some .EAGAIN, σ) => ({ σ with refused := true }, .ok false)
        | (some errno, σ)   => ({ σ with refused := true }, .error (.runtime_error "Sending failed, errno=" errno))

/-- The end of `trySendQueue`: a queue that is stopped and empty shuts the socket down, once. -/
def Transport.shutdown (σ : Transport) : Transport :=
  if σ.running || σ.mSendShutdown then σ
  else
    match σ.answer with
    | (answer, σ) =>
        let σ := { σ with mSendShutdown := true, calls := σ.calls ++ [.shutdown false] }
        if answer = none ∨ answer = some .ENOTCONN then σ else (σ.changeState .Disconnected).recv none

/-- The loop of `trySendQueue` over what is queued. -/
def Transport.trySendQueue.loop : List Outgoing → Transport → Transport × Except Exception Bool
  | [], σ      => (σ.shutdown, .ok true)
  | m :: ms, σ =>
      match σ.trySendMessage m with
      | (σ, .error e)  => (σ, .error e)
      | (σ, .ok false) => (σ, .ok false)
      | (σ, .ok true)  => loop ms (σ.pop.updateBufferedAmount m.stream (-(message_size_func m.message)))

def Transport.trySendQueue (σ : Transport) : Transport × Except Exception Bool :=
  trySendQueue.loop σ.mSendQueue.queue σ

/-- A message goes to the socket past the queue, which is empty. -/
def Transport.pass (σ : Transport) (m : Outgoing) : Transport := { σ with mSendQueue := σ.mSendQueue.pass m }

/-- A message that the socket does not take now waits. -/
def Transport.wait (σ : Transport) (m : Outgoing) : Transport × Except Exception Bool :=
  ((σ.push m).updateBufferedAmount m.stream (message_size_func m.message), .ok false)

/-- `send`. On an exception the message is not sent. -/
def Transport.send (cfg : Config) (σ : Transport) (message : Option Outgoing) :
    Transport × Except Exception Bool :=
  if σ.mState ≠ .Connected then (σ, .ok false)
  else
    match message with
    | none   => σ.trySendQueue
    | some m =>
        if cfg.mMaxMessageSize < m.message.data.length then
          (σ, .error (.invalid_argument "Message is too large"))
        else
          match σ.trySendQueue with
          | (σ, .error e)  => (σ, .error e)
          | (σ, .ok false) => σ.wait m
          | (σ, .ok true)  =>
              match σ.trySendMessage m with
              | (σ, .error e)  => (σ, .error e)
              | (σ, .ok false) => σ.wait m
              | (σ, .ok true)  => (σ.pass m, .ok true)

/-- `flush` and `doFlush` log an exception. -/
def Transport.flush (σ : Transport) : Transport :=
  if σ.mState ≠ .Connected then σ else σ.trySendQueue.1

def Transport.enqueue (σ : Transport) (task : Task) : Transport := { σ with mProcessor := σ.mProcessor ++ [task] }

def Transport.closeStream (σ : Transport) (stream : Nat) : Transport :=
  (σ.push { stream, message := { type := .Reset, data := [], reliability := none, source := none } }).enqueue .flush

def Transport.close (σ : Transport) : Transport :=
  let σ := { σ with mStopping := true }
  match σ.mState with
  | .Connected  => σ.enqueue .flush
  | .Connecting => ({ σ with calls := σ.calls ++ [.shutdown true] } : Transport).changeState .Failed
  | _           => σ

def Transport.doFlush (σ : Transport) : Transport :=
  { σ with mPendingFlushCount := σ.mPendingFlushCount - 1 }.trySendQueue.1

def Transport.enqueueRecv (σ : Transport) : Transport :=
  if 0 < σ.mPendingRecvCount then σ
  else { σ with mPendingRecvCount := σ.mPendingRecvCount + 1 }.enqueue .doRecv

def Transport.enqueueFlush (σ : Transport) : Transport :=
  if 0 < σ.mPendingFlushCount then σ
  else { σ with mPendingFlushCount := σ.mPendingFlushCount + 1 }.enqueue .doFlush

/-- `handleUpcall`, with the events that `usrsctp_get_events` reports. -/
def Transport.handleUpcall (σ : Transport) (read write : Bool) : Transport :=
  let σ := if read then σ.enqueueRecv else σ
  if write then σ.enqueueFlush else σ

/-! ## Receiving -/

/-- `resize`, which fills up with zeros. -/
def resize (data : Bytes) (size : Nat) : Bytes := data.take size ++ List.replicate (size - data.length) 0

/-- A message or the last part of one whose first parts came with a deprecated `ppid`: the bytes that are
    handed on, and how many are counted. -/
def complete (mMaxMessageSize : Nat) (parts data : Bytes) : Bytes :=
  if parts = [] then data else resize (parts ++ data) mMaxMessageSize

def Transport.processData (cfg : Config) (σ : Transport) (data : Bytes) (sid ppid : Nat) : Transport :=
  if ppid = PPID_CONTROL then σ.recv (some (sid, .Control, data))
  else if ppid = PPID_STRING_PARTIAL then
    { σ with mPartialStringData := resize (σ.mPartialStringData ++ data) cfg.mMaxMessageSize }
  else if ppid = PPID_STRING then
    let message := complete cfg.mMaxMessageSize σ.mPartialStringData data
    { σ with mPartialStringData := [], mBytesReceived := σ.mBytesReceived + message.length }.recv
      (some (sid, .String, message))
  else if ppid = PPID_STRING_EMPTY then
    { σ with mPartialStringData := [] }.recv (some (sid, .String, σ.mPartialStringData))
  else if ppid = PPID_BINARY_PARTIAL then
    { σ with mPartialBinaryData := resize (σ.mPartialBinaryData ++ data) cfg.mMaxMessageSize }
  else if ppid = PPID_BINARY then
    let message := complete cfg.mMaxMessageSize σ.mPartialBinaryData data
    { σ with mPartialBinaryData := [], mBytesReceived := σ.mBytesReceived + message.length }.recv
      (some (sid, .Binary, message))
  else if ppid = PPID_BINARY_EMPTY then
    { σ with mPartialBinaryData := [] }.recv (some (sid, .Binary, σ.mPartialBinaryData))
  else σ

/-- `processNotification`. -/
def Transport.processNotification (σ : Transport) (n : Notification) (len : Nat) : Transport :=
  if len ≠ n.sn_length then σ
  else
    match n.event with
    | .assocChange (some (inbound, outbound)) =>
        { σ with
          mState := .Connected
          mNegotiatedStreamsCount := some (min inbound outbound)
          early := σ.early || (σ.mState ≠ .Connected && (!σ.mSendQueue.queue.isEmpty || σ.mStopping)) }
    | .assocChange none =>
        if σ.mState = .Connected then (σ.changeState .Disconnected).recv none else σ.changeState .Failed
    | .senderDry => σ.flush
    | .streamReset incoming streams =>
        if incoming then streams.foldl (fun σ streamId => σ.recv (some (streamId, .Reset, []))) σ else σ
    | .other => σ

/-- The loop of `doRecv` over what is in the socket. -/
def Transport.doRecv.loop (cfg : Config) : List Chunk → Transport → Transport
  | [], σ      => { σ with inbox := [] }
  | c :: cs, σ =>
      if σ.mState = .Disconnected ∨ σ.mState = .Failed then { σ with inbox := c :: cs }
      else
        let σ := { σ with read := σ.read ++ [c] }
        if c.data = [] then { σ with inbox := cs }
        else if c.notification then
          let notification := σ.mPartialNotification ++ c.data
          if c.eor then
            loop cfg cs
              ({ σ with mPartialNotification := [] }.processNotification (cfg.notification notification)
                notification.length)
          else loop cfg cs { σ with mPartialNotification := notification }
        else
          let message := σ.mPartialMessage ++ c.data
          let message := if cfg.mMaxMessageSize < message.length then resize message cfg.mMaxMessageSize else message
          if c.eor then
            match c.info with
            -- "Missing SCTP recv info" leaves the loop
            | none            => { σ with mPartialMessage := [], inbox := cs }
            | some (sid, ppid) => loop cfg cs ({ σ with mPartialMessage := [] }.processData cfg message sid ppid)
          else loop cfg cs { σ with mPartialMessage := message }

def Transport.doRecv (cfg : Config) (σ : Transport) : Transport :=
  doRecv.loop cfg σ.inbox { σ with mPendingRecvCount := σ.mPendingRecvCount - 1 }

/-! ## Steps -/

inductive Act where
  | start
  /-- The lower transport is disconnected. -/
  | incoming
  | send (message : Option Outgoing) (answers : List (Option Errno))
  | closeStream (stream : Nat)
  | close
  | upcall (read write : Bool)
  /-- The processor runs its next task. -/
  | task (answers : List (Option Errno))
  /-- Chunks arrive in the socket. -/
  | arrive (chunks : List Chunk)
  /-- A channel comes into the table of the peer connection, or leaves it. -/
  | register (stream : Nat)
  | unregister (stream : Nat)
  | setBufferedAmountLowThreshold (stream amount : Nat)
deriving DecidableEq, Repr

def Transport.run (cfg : Config) (σ : Transport) : Task → Transport
  | .doRecv  => σ.doRecv cfg
  | .doFlush => σ.doFlush
  | .flush   => σ.flush

/-- A new channel has the amount 0 and the threshold 0. -/
def Channel.new : Channel :=
  { bufferedAmount := 0, bufferedAmountLowThreshold := 0, reported := false, low := 0, rises := 0 }

/-- One step of the transport; `none` when it is not enabled. -/
def step (cfg : Config) (σ : Transport) : Act → Option Transport
  | .start                => if σ.mState = .Disconnected then some (σ.changeState .Connecting) else none
  | .incoming             =>
      if σ.mState = .Failed then some σ else some ((σ.changeState .Disconnected).recv none)
  | .send message answers => some ({ σ with answers }.send cfg message).1
  | .closeStream stream   => some (σ.closeStream stream)
  | .close                => some σ.close
  | .upcall read write    => some (σ.handleUpcall read write)
  | .task answers         =>
      match σ.mProcessor with
      | []      => none
      | t :: ts => some ({ σ with mProcessor := ts, answers }.run cfg t)
  | .arrive chunks        => some { σ with inbox := σ.inbox ++ chunks }
  | .register stream      =>
      if σ.channels stream = none then
        some { σ with channels := Function.update σ.channels stream (some Channel.new) }
      else none
  | .unregister stream    => some { σ with channels := Function.update σ.channels stream none }
  | .setBufferedAmountLowThreshold stream amount =>
      match σ.channels stream with
      | none   => none
      | some c =>
          some { σ with
            channels := Function.update σ.channels stream (some { c with bufferedAmountLowThreshold := amount }) }

end HxDatachannel.Sctp
