import HxDatachannel.Base.Lts
import HxDatachannel.Sctp.Defs

/-!
# `Sctp.Effect` — what the transport can do

Every function of the transport is made of a few moves: the socket takes or refuses a message, a message
waits, the queue stops, the socket is shut down, the state changes, something is received, a task is
queued. `Closed` lists them; what every move keeps, every step keeps.
-/

namespace HxDatachannel.Sctp

variable {cfg : Config} {σ τ : Transport} {m : Outgoing}

/-- The call that hands a message to the socket. -/
def Outgoing.call (m : Outgoing) : Call :=
  match ppid m.message with
  | none      => .resetStreams m.stream
  | some ppid => .sendv (m.datagram ppid)

/-- The socket took `m`; the queue is as before. -/
def Transport.handed (σ : Transport) (m : Outgoing) (answers : List (Option Errno)) (refused : Bool) :
    Transport :=
  { σ with
    answers, refused
    calls := σ.calls ++ [m.call]
    mBytesSent := σ.mBytesSent + message_size_func m.message }

/-- The socket did not take a message, or nobody asked it to. -/
def Transport.held (σ : Transport) (answers : List (Option Errno)) (refused : Bool) : Transport :=
  { σ with answers, refused }

theorem ppid_eq_none {m : Message} : ppid m = none ↔ m.type = .Reset := by
  unfold ppid
  cases m.type <;> simp

/-- A reset is not counted. -/
theorem size_reset {m : Message} (h : m.type = .Reset) : message_size_func m = 0 := by
  simp [message_size_func, h]

theorem answer_eq (σ : Transport) : ∃ a as, σ.answer = (a, { σ with answers := as }) := by
  unfold Transport.answer
  split
  · exact ⟨some .EAGAIN, σ.answers, rfl⟩
  · rename_i a as _
    exact ⟨a, as, rfl⟩

/-- **Handing over.** The socket takes the message, or all stays as it is. Of a transport that is connected
    it is known that the socket refused then. -/
theorem trySendMessage_cases (σ : Transport) (m : Outgoing) :
    (∃ as r, σ.trySendMessage m = (σ.handed m as r, .ok true) ∧ σ.mState = .Connected ∧
      (r = true → σ.refused = true)) ∨
    ∃ as r res, σ.trySendMessage m = (σ.held as r, res) ∧ res ≠ .ok true ∧
      (σ.mState = .Connected → r = true) := by
  unfold Transport.trySendMessage
  by_cases hs : σ.mState = .Connected
  · rw [if_neg (not_not.mpr hs)]
    cases hp : ppid m.message with
    | none =>
        refine .inl ⟨σ.answers, σ.refused, ?_, hs, fun h => h⟩
        have hsize := size_reset (ppid_eq_none.mp hp)
        simp only [Transport.sendReset, hs, ne_eq, not_true_eq_false, if_false, Transport.handed,
          Outgoing.call, hp, hsize, Nat.add_zero]
    | some p =>
        obtain ⟨a, as, ha⟩ := answer_eq σ
        simp only [ha]
        cases a with
        | none =>
            refine .inl ⟨as, false, ?_, hs, by simp⟩
            simp only [Transport.handed, Outgoing.call, hp]
        | some e =>
            right
            cases e with
            | EAGAIN => exact ⟨as, true, _, rfl, by simp, fun _ => rfl⟩
            | ENOTCONN => exact ⟨as, true, _, rfl, by simp, fun _ => rfl⟩
            | other n => exact ⟨as, true, _, rfl, by simp, fun _ => rfl⟩
  · rw [if_pos hs]
    exact .inr ⟨σ.answers, σ.refused, _, rfl, by simp, fun h => absurd h hs⟩

/-- A message that the queue held is counted off. -/
def Transport.popped (σ : Transport) (m : Outgoing) : Transport :=
  σ.pop.updateBufferedAmount m.stream (-(message_size_func m.message))

/-- The message that `closeStream` pushes. -/
def Outgoing.reset (stream : Nat) : Outgoing :=
  { stream, message := { type := .Reset, data := [], reliability := none, source := none } }

/-! ## The amount of a stream -/

/-- The new amount of a stream. -/
def Transport.amount (σ : Transport) (streamId : Nat) (delta : Int) : Nat :=
  (max (σ.mBufferedAmount streamId + delta) 0).toNat

/-- The channels after a report. -/
def Transport.report (σ : Transport) (streamId amount : Nat) : Nat → Option Channel :=
  Function.update σ.channels streamId ((σ.channels streamId).map fun c => c.triggerBufferedAmount amount)

theorem triggerBufferedAmount_eq (σ : Transport) (streamId amount : Nat) :
    σ.triggerBufferedAmount streamId amount = { σ with channels := σ.report streamId amount } := by
  unfold Transport.triggerBufferedAmount Transport.report
  split
  · rename_i h
    rw [h, Option.map_none, ← h, Function.update_eq_self]
  · rename_i c h
    rw [h, Option.map_some]

/-- A change of an amount reaches the table and the channel of the stream, and nothing else. -/
theorem updateBufferedAmount_eq {streamId : Nat} {delta : Int} (h : delta ≠ 0) :
    σ.updateBufferedAmount streamId delta =
      { σ with
        mBufferedAmount := Function.update σ.mBufferedAmount streamId (σ.amount streamId delta)
        channels := σ.report streamId (σ.amount streamId delta) } := by
  unfold Transport.updateBufferedAmount
  rw [if_neg h]
  exact triggerBufferedAmount_eq _ _ _

@[simp] theorem updateBufferedAmount_zero (σ : Transport) (streamId : Nat) :
    σ.updateBufferedAmount streamId 0 = σ := by
  simp [Transport.updateBufferedAmount]

theorem wait_reset (σ : Transport) (stream : Nat) :
    (σ.wait (.reset stream)).1 = σ.push (.reset stream) :=
  updateBufferedAmount_zero _ stream

theorem amount_add (σ : Transport) (streamId n : Nat) :
    σ.amount streamId n = σ.mBufferedAmount streamId + n := by
  unfold Transport.amount
  omega

theorem amount_sub (σ : Transport) (streamId n : Nat) :
    σ.amount streamId (-n) = σ.mBufferedAmount streamId - n := by
  unfold Transport.amount
  omega

/-- What a change of an amount does to the amounts, and that it leaves alone all but the channels. -/
theorem updateBufferedAmount_frame (σ : Transport) (streamId : Nat) (delta : Int) :
    ∃ channels, σ.updateBufferedAmount streamId delta =
      { σ with
        mBufferedAmount := Function.update σ.mBufferedAmount streamId (σ.amount streamId delta), channels } := by
  by_cases h : delta = 0
  · subst h
    refine ⟨σ.channels, ?_⟩
    have hsame : σ.amount streamId 0 = σ.mBufferedAmount streamId := amount_add σ streamId 0
    rw [updateBufferedAmount_zero, hsame, Function.update_eq_self]
  · exact ⟨_, updateBufferedAmount_eq h⟩

/-- What it does that the socket takes the head of the queue. -/
theorem popped_eq {ms : List Outgoing} (hq : σ.mSendQueue.queue = m :: ms) (as : List (Option Errno)) (r : Bool) :
    ∃ channels, (σ.handed m as r).popped m =
      { σ.handed m as r with
        mSendQueue := { σ.mSendQueue with queue := ms, popped := σ.mSendQueue.popped ++ [m] }
        mBufferedAmount := Function.update σ.mBufferedAmount m.stream
          (σ.mBufferedAmount m.stream - message_size_func m.message)
        channels } := by
  have hpop : (σ.handed m as r).pop =
      { σ.handed m as r with
        mSendQueue := { σ.mSendQueue with queue := ms, popped := σ.mSendQueue.popped ++ [m] } } := by
    simp [Transport.pop, Fifo.pop, Transport.handed, hq]
  obtain ⟨channels, h⟩ :=
    updateBufferedAmount_frame (σ.handed m as r).pop m.stream (-(message_size_func m.message))
  refine ⟨channels, ?_⟩
  rw [Transport.popped, h, amount_sub, hpop]
  rfl

theorem popped_queue {ms : List Outgoing} {as : List (Option Errno)} {r : Bool}
    (hq : σ.mSendQueue.queue = m :: ms) : ((σ.handed m as r).popped m).mSendQueue.queue = ms := by
  obtain ⟨channels, h⟩ := popped_eq hq as r
  rw [h]

/-- The socket is shut down, or all stays as it is. -/
theorem shutdown_cases (σ : Transport) :
    (σ.shutdown = σ ∧ (σ.running = true ∨ σ.mSendShutdown = true)) ∨
    (σ.running = false ∧ σ.mSendShutdown = false ∧ ∃ as,
      (σ.shutdown = { σ with answers := as, mSendShutdown := true, calls := σ.calls ++ [.shutdown false] } ∨
        σ.shutdown = { σ with
          answers := as, mSendShutdown := true, calls := σ.calls ++ [.shutdown false]
          mState := .Disconnected, received := σ.received ++ [none] })) := by
  unfold Transport.shutdown
  by_cases hc : (σ.running || σ.mSendShutdown) = true
  · rw [if_pos hc]
    exact .inl ⟨rfl, Bool.or_eq_true_iff.mp hc⟩
  · rw [if_neg hc]
    obtain ⟨hr, hs⟩ := Bool.or_eq_false_iff.mp (Bool.not_eq_true _ ▸ hc)
    obtain ⟨a, as, ha⟩ := answer_eq σ
    refine .inr ⟨hr, hs, as, ?_⟩
    simp only [ha]
    split
    · exact .inl rfl
    · exact .inr rfl

@[simp] theorem shutdown_queue (σ : Transport) : σ.shutdown.mSendQueue = σ.mSendQueue := by
  rcases shutdown_cases σ with ⟨h, _⟩ | ⟨_, _, as, h | h⟩ <;> rw [h]

/-! ## Moves -/

/-- A property that the moves of `trySendQueue` keep. -/
structure Sends (P : Transport → Prop) : Prop where
  held     : ∀ σ as r, P σ → P (σ.held as r)
  /-- The socket takes the head of the queue. -/
  popped   : ∀ σ m ms as r, P σ → σ.mState = .Connected → σ.mSendQueue.queue = m :: ms →
    P ((σ.handed m as r).popped m)
  shutdown : ∀ σ, P σ → σ.mSendQueue.queue = [] → P σ.shutdown

/-- The association is up. -/
def Transport.up (σ : Transport) (inbound outbound : Nat) : Transport :=
  { σ with
    mState := .Connected
    mNegotiatedStreamsCount := some (min inbound outbound)
    early := σ.early || (σ.mState ≠ .Connected && (!σ.mSendQueue.queue.isEmpty || σ.mStopping)) }

/-- A property that the moves of `doRecv` keep, which may flush. -/
structure Receives (P : Transport → Prop) : Prop where
  receive : ∀ σ message notification stringData binaryData bytes inbox read received, P σ →
    P { σ with
      mPartialMessage := message, mPartialNotification := notification, mPartialStringData := stringData
      mPartialBinaryData := binaryData, mBytesReceived := bytes, inbox, read, received }
  down    : ∀ σ state, P σ → state ≠ .Connected → P (σ.changeState state)
  up      : ∀ σ inbound outbound, P σ → P (σ.up inbound outbound)
  flush   : ∀ σ, P σ → P σ.flush

/-- A property that every move of a task keeps. -/
structure Works (P : Transport → Prop) : Prop extends Sends P where
  receive : ∀ σ message notification stringData binaryData bytes inbox read received, P σ →
    P { σ with
      mPartialMessage := message, mPartialNotification := notification, mPartialStringData := stringData
      mPartialBinaryData := binaryData, mBytesReceived := bytes, inbox, read, received }
  state   : ∀ σ state streams early, P σ →
    P { σ with mState := state, mNegotiatedStreamsCount := streams, early }

/-- A property that every move keeps but those of the channels. -/
structure Kept (P : Transport → Prop) : Prop extends Works P where
  schedule : ∀ σ tasks recvs flushes, P σ →
    P { σ with mProcessor := tasks, mPendingRecvCount := recvs, mPendingFlushCount := flushes }

/-- A property that the moves of `send` keep. -/
structure Puts (P : Transport → Prop) : Prop extends Sends P where
  /-- The socket takes a message while the queue is empty. -/
  passed : ∀ σ m as r, P σ → σ.mState = .Connected → σ.mSendQueue.queue = [] →
    P ((σ.handed m as r).pass m)
  wait   : ∀ σ m, P σ → P (σ.wait m).1

/-- A property that every move keeps but those of receiving. -/
structure Outer (P : Transport → Prop) : Prop extends Puts P where
  stop     : ∀ σ, P σ → P { σ with mStopping := true }
  abort    : ∀ σ, P σ → P { σ with calls := σ.calls ++ [.shutdown true], mState := .Failed }
  state    : ∀ σ state streams early, P σ →
    P { σ with mState := state, mNegotiatedStreamsCount := streams, early }
  hangup   : ∀ σ, P σ → P (σ.recv none)
  schedule : ∀ σ tasks recvs flushes, P σ →
    P { σ with mProcessor := tasks, mPendingRecvCount := recvs, mPendingFlushCount := flushes }

/-- A property that every move of the transport keeps. -/
structure Closed (P : Transport → Prop) : Prop extends Puts P where
  stop     : ∀ σ, P σ → P { σ with mStopping := true }
  abort    : ∀ σ, P σ → P { σ with calls := σ.calls ++ [.shutdown true], mState := .Failed }
  state    : ∀ σ state streams early, P σ →
    P { σ with mState := state, mNegotiatedStreamsCount := streams, early }
  schedule : ∀ σ tasks recvs flushes, P σ →
    P { σ with mProcessor := tasks, mPendingRecvCount := recvs, mPendingFlushCount := flushes }
  receive  : ∀ σ message notification stringData binaryData bytes inbox read received, P σ →
    P { σ with
      mPartialMessage := message, mPartialNotification := notification, mPartialStringData := stringData
      mPartialBinaryData := binaryData, mBytesReceived := bytes, inbox, read, received }

theorem Closed.toOuter {P : Transport → Prop} (hP : Closed P) : Outer P :=
  { hP.toPuts with
    stop := hP.stop, abort := hP.abort, state := hP.state, schedule := hP.schedule
    hangup := fun σ h => hP.receive σ _ _ _ _ _ _ _ _ h }

theorem Closed.toKept {P : Transport → Prop} (hP : Closed P) : Kept P :=
  { hP.toSends with receive := hP.receive, state := hP.state, schedule := hP.schedule }

variable {P : Transport → Prop}

namespace Sends

variable (hP : Sends P)
include hP

/-- **The queue rule.** What the moves of `trySendQueue` keep, `trySendQueue` keeps, and it says that all is
    sent only when nothing is queued any more. -/
theorem trySendQueue_rule (h : P σ) :
    P σ.trySendQueue.1 ∧ (σ.trySendQueue.2 = .ok true → σ.trySendQueue.1.mSendQueue.queue = []) := by
  unfold Transport.trySendQueue
  generalize hq : σ.mSendQueue.queue = q
  induction q generalizing σ with
  | nil =>
      refine ⟨hP.shutdown σ h hq, fun _ => ?_⟩
      show σ.shutdown.mSendQueue.queue = []
      rw [shutdown_queue]
      exact hq
  | cons m ms ih =>
      rcases trySendMessage_cases σ m with ⟨as, r, ht, hs, _⟩ | ⟨as, r, res, ht, hres, _⟩
      · simp only [Transport.trySendQueue.loop, ht]
        exact ih (hP.popped σ m ms as r h hs hq) (popped_queue hq)
      · simp only [Transport.trySendQueue.loop, ht]
        rcases res with e | _ | _
        · exact ⟨hP.held σ as r h, by simp⟩
        · exact ⟨hP.held σ as r h, by simp⟩
        · exact absurd rfl hres

theorem trySendQueue (h : P σ) : P σ.trySendQueue.1 := (hP.trySendQueue_rule h).1

theorem flush (h : P σ) : P σ.flush := by
  unfold Transport.flush
  split
  · exact h
  · exact hP.trySendQueue h

end Sends

namespace Receives

variable (hP : Receives P)
include hP

theorem recv (message : Option (Nat × Content)) (h : P σ) : P (σ.recv message) :=
  hP.receive σ _ _ _ _ _ _ _ _ h

theorem resets (streams : List Nat) (h : P σ) :
    P (streams.foldl (fun σ streamId => σ.recv (some (streamId, .Reset, []))) σ) := by
  induction streams generalizing σ with
  | nil => exact h
  | cons s streams ih => exact ih (hP.recv _ h)

theorem processData (data : Bytes) (sid ppid : Nat) (h : P σ) : P (σ.processData cfg data sid ppid) := by
  unfold Transport.processData
  repeat' split
  all_goals first | exact h | exact hP.receive σ _ _ _ _ _ _ _ _ h

theorem processNotification (n : Notification) (len : Nat) (h : P σ) :
    P (σ.processNotification n len) := by
  unfold Transport.processNotification
  split
  · exact h
  · split
    · exact hP.up σ _ _ h
    · split
      · exact hP.recv none (hP.down σ .Disconnected h (by simp))
      · exact hP.down σ .Failed h (by simp)
    · exact hP.flush σ h
    · split
      · exact hP.resets _ h
      · exact h
    · exact h

theorem doRecv_loop (cs : List Chunk) (h : P σ) : P (Transport.doRecv.loop cfg cs σ) := by
  induction cs generalizing σ with
  | nil => exact hP.receive σ _ _ _ _ _ _ _ _ h
  | cons c cs ih =>
      unfold Transport.doRecv.loop
      split
      · exact hP.receive σ _ _ _ _ _ _ _ _ h
      · split
        · exact hP.receive σ _ _ _ _ _ _ _ _ h
        · split
          · dsimp only
            split
            · exact ih (hP.processNotification _ _ (hP.receive σ _ _ _ _ _ _ _ _ h))
            · exact ih (hP.receive σ _ _ _ _ _ _ _ _ h)
          · dsimp only
            split
            · split
              · exact hP.receive σ _ _ _ _ _ _ _ _ h
              · exact ih (hP.processData _ _ _ (hP.receive σ _ _ _ _ _ _ _ _ h))
            · exact ih (hP.receive σ _ _ _ _ _ _ _ _ h)

end Receives

/-- Receiving and flushing are moves of a task. -/
theorem Works.toReceives (hP : Works P) : Receives P where
  receive := hP.receive
  down σ state h _ := hP.state σ state σ.mNegotiatedStreamsCount σ.early h
  up σ _ _ h := hP.state σ _ _ _ h
  flush _ h := hP.toSends.flush h

/-- A property that the queue of the processor has no part in. -/
def Unscheduled (P : Transport → Prop) : Prop := ∀ σ tasks recvs flushes, P σ →
  P { σ with mProcessor := tasks, mPendingRecvCount := recvs, mPendingFlushCount := flushes }

namespace Unscheduled

variable (hP : Unscheduled P)
include hP

theorem enqueue (task : Task) (h : P σ) : P (σ.enqueue task) := hP σ _ _ _ h

theorem enqueueRecv (h : P σ) : P σ.enqueueRecv := by
  unfold Transport.enqueueRecv
  split
  · exact h
  · exact hP σ _ _ _ h

theorem enqueueFlush (h : P σ) : P σ.enqueueFlush := by
  unfold Transport.enqueueFlush
  split
  · exact h
  · exact hP σ _ _ _ h

theorem handleUpcall (read write : Bool) (h : P σ) : P (σ.handleUpcall read write) := by
  cases read with
  | false =>
      cases write with
      | false => exact h
      | true => exact hP.enqueueFlush h
  | true =>
      cases write with
      | false => exact hP.enqueueRecv h
      | true => exact hP.enqueueFlush (hP.enqueueRecv h)

end Unscheduled

namespace Kept

variable (hP : Kept P)
include hP

theorem doFlush (h : P σ) : P σ.doFlush :=
  hP.toSends.trySendQueue (hP.schedule σ _ _ _ h)

theorem doRecv (h : P σ) : P (σ.doRecv cfg) :=
  hP.toWorks.toReceives.doRecv_loop _ (hP.schedule σ _ _ _ h)

theorem run (t : Task) (h : P σ) : P (σ.run cfg t) := by
  cases t with
  | doRecv => exact hP.doRecv h
  | doFlush => exact hP.doFlush h
  | flush => exact hP.toSends.flush h

/-- The processor runs its next task. -/
theorem task {answers : List (Option Errno)} (hstep : step cfg σ (.task answers) = some τ) (h : P σ) : P τ := by
  simp only [step] at hstep
  split at hstep
  · exact absurd hstep (by simp)
  · rename_i t ts _
    exact Option.some.inj hstep ▸
      hP.run t (hP.held _ answers σ.refused (hP.schedule σ ts σ.mPendingRecvCount σ.mPendingFlushCount h))

end Kept

namespace Puts

variable (hP : Puts P)
include hP

theorem send (message : Option Outgoing) (h : P σ) : P (σ.send cfg message).1 := by
  unfold Transport.send
  split
  · exact h
  · cases message with
    | none => exact hP.toSends.trySendQueue h
    | some m =>
        dsimp only
        split
        · exact h
        · have hq := hP.toSends.trySendQueue h
          have hempty := (hP.toSends.trySendQueue_rule h).2
          generalize σ.trySendQueue = r at hq hempty ⊢
          rcases r with ⟨σ', e | _ | _⟩
          · exact hq
          · exact hP.wait σ' m hq
          · dsimp only
            rcases trySendMessage_cases σ' m with ⟨as, r, ht, hs, _⟩ | ⟨as, r, res, ht, hres, _⟩
            · rw [ht]
              exact hP.passed σ' m as r hq hs (hempty rfl)
            · rw [ht]
              rcases res with e | _ | _
              · exact hP.held σ' as r hq
              · exact hP.wait _ m (hP.held σ' as r hq)
              · exact absurd rfl hres

end Puts

/-- The step neither reads from the socket nor changes the table of channels. -/
def Act.isOuter (σ : Transport) : Act → Prop
  | .task _ => σ.mProcessor.head? ≠ some .doRecv
  | .arrive _ | .register _ | .unregister _ | .setBufferedAmountLowThreshold _ _ => False
  | .start | .incoming | .send _ _ | .closeStream _ | .close | .upcall _ _ => True

namespace Outer

variable (hP : Outer P)
include hP

theorem closeStream (stream : Nat) (h : P σ) : P (σ.closeStream stream) :=
  Unscheduled.enqueue hP.schedule .flush (wait_reset σ stream ▸ hP.wait σ (Outgoing.reset stream) h)

theorem close (h : P σ) : P σ.close := by
  have hstop := hP.stop σ h
  unfold Transport.close
  dsimp only
  split
  · exact Unscheduled.enqueue hP.schedule .flush hstop
  · exact hP.abort _ hstop
  · exact hstop

theorem doFlush (h : P σ) : P σ.doFlush :=
  hP.toSends.trySendQueue (hP.schedule σ _ _ _ h)

/-- **The outer step rule.** It is for steps that neither read from the socket nor change the table of
    channels. -/
theorem step {a : Act} (hstep : step cfg σ a = some τ) (ha : a.isOuter σ) (h : P σ) : P τ := by
  cases a with
  | start =>
      simp only [Sctp.step, Option.ite_none_right_eq_some, Option.some.injEq] at hstep
      obtain ⟨_, rfl⟩ := hstep
      exact hP.state σ _ _ _ h
  | incoming =>
      simp only [Sctp.step] at hstep
      split at hstep
      · exact Option.some.inj hstep ▸ h
      · exact Option.some.inj hstep ▸ hP.hangup _ (hP.state σ .Disconnected _ _ h)
  | send message answers =>
      exact Option.some.inj hstep ▸ hP.toPuts.send message (hP.held σ answers σ.refused h)
  | closeStream stream => exact Option.some.inj hstep ▸ hP.closeStream stream h
  | close => exact Option.some.inj hstep ▸ hP.close h
  | upcall read write =>
      exact Option.some.inj hstep ▸ Unscheduled.handleUpcall hP.schedule read write h
  | task answers =>
      simp only [Sctp.step] at hstep
      split at hstep
      · exact absurd hstep (by simp)
      · rename_i t ts hp
        have hstart := hP.held _ answers σ.refused
          (hP.schedule σ ts σ.mPendingRecvCount σ.mPendingFlushCount h)
        cases t with
        | doRecv => exact absurd (by rw [hp, List.head?_cons]) ha
        | doFlush => exact Option.some.inj hstep ▸ hP.doFlush hstart
        | flush => exact Option.some.inj hstep ▸ hP.toSends.flush hstart
  | _ => exact absurd ha (by simp [Act.isOuter])

end Outer

namespace Closed

variable (hP : Closed P)
include hP

/-- **The step rule.** What every move keeps, every step keeps that does not change the table of channels
    or a threshold. -/
theorem step {a : Act} (hstep : step cfg σ a = some τ) (hregister : ∀ stream, a ≠ .register stream)
    (hunregister : ∀ stream, a ≠ .unregister stream)
    (hthreshold : ∀ stream n, a ≠ .setBufferedAmountLowThreshold stream n) (h : P σ) : P τ := by
  cases a with
  | task answers => exact hP.toKept.task hstep h
  | arrive chunks => exact Option.some.inj hstep ▸ hP.receive σ _ _ _ _ _ _ _ _ h
  | register stream => exact absurd rfl (hregister stream)
  | unregister stream => exact absurd rfl (hunregister stream)
  | setBufferedAmountLowThreshold stream n => exact absurd rfl (hthreshold stream n)
  | _ => exact hP.toOuter.step hstep trivial h

end Closed

end HxDatachannel.Sctp
