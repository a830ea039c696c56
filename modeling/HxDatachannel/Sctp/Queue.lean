import HxDatachannel.Sctp.Effect

/-!
# `Sctp.Queue` — what is sent, what waits and what is counted

`Inv` holds in every state that a run reaches: the socket took what was accepted, in order, up to what
still waits; the amount of a stream counts what waits on it and what was pushed on the stopped queue; the
socket is shut down at most once, after the queue was stopped and everything was sent.
-/

namespace HxDatachannel.Sctp

open Lts

variable {cfg : Config} {σ τ : Transport} {m : Outgoing}

/-- The call hands a message to the socket. -/
def Call.isMessage : Call → Bool
  | .sendv _        => true
  | .resetStreams _ => true
  | .shutdown _     => false

/-- The bytes of the messages on a stream. -/
def buffered (stream : Nat) : List Outgoing → Nat
  | []      => 0
  | m :: ms => (if m.stream = stream then message_size_func m.message else 0) + buffered stream ms

/-- The bytes of the messages, on all streams. -/
def size : List Outgoing → Nat
  | []      => 0
  | m :: ms => message_size_func m.message + size ms

structure Inv (σ : Transport) : Prop where
  conserved : σ.mSendQueue.Conserved
  calls     : σ.calls.filter Call.isMessage = σ.mSendQueue.popped.map Outgoing.call
  amount    : ∀ stream,
    σ.mBufferedAmount stream = buffered stream σ.mSendQueue.queue + buffered stream σ.mDropped
  dropped   : σ.mStopping = false → σ.mDropped = []
  closed    : σ.mSendShutdown = true → σ.mStopping = true ∧ σ.mSendQueue.queue = []
  once      : σ.calls.count (.shutdown false) = if σ.mSendShutdown then 1 else 0
  bytes     : σ.mBytesSent = size σ.mSendQueue.popped

/-! ## Amounts -/

theorem buffered_append (stream : Nat) (xs ys : List Outgoing) :
    buffered stream (xs ++ ys) = buffered stream xs + buffered stream ys := by
  induction xs with
  | nil => exact (Nat.zero_add _).symm
  | cons x xs ih =>
      simp only [List.cons_append, buffered, ih]
      omega

theorem size_append (xs ys : List Outgoing) : size (xs ++ ys) = size xs + size ys := by
  induction xs with
  | nil => exact (Nat.zero_add _).symm
  | cons x xs ih =>
      simp only [List.cons_append, size, ih]
      omega

/-! ## The moves -/

theorem call_isMessage (m : Outgoing) : m.call.isMessage = true := by
  unfold Outgoing.call
  split <;> rfl

theorem call_ne_shutdown (m : Outgoing) (rdwr : Bool) : m.call ≠ .shutdown rdwr := by
  intro h
  have := call_isMessage m
  rw [h] at this
  exact absurd this (by simp [Call.isMessage])

/-- The log of calls when the socket takes one more message. -/
theorem Inv.calls_handed (h : Inv σ) (m : Outgoing) :
    (σ.calls ++ [m.call]).filter Call.isMessage = (σ.mSendQueue.popped ++ [m]).map Outgoing.call := by
  rw [List.filter_append, h.calls, List.map_append, List.filter_singleton, call_isMessage]
  rfl

theorem Inv.once_handed (h : Inv σ) (m : Outgoing) :
    (σ.calls ++ [m.call]).count (.shutdown false) = if σ.mSendShutdown then 1 else 0 := by
  rw [List.count_append, h.once, List.count_singleton, beq_eq_false_iff_ne.mpr (call_ne_shutdown m false)]
  rfl

theorem Inv.bytes_handed (h : Inv σ) (m : Outgoing) :
    σ.mBytesSent + message_size_func m.message =
      size (σ.mSendQueue.popped ++ [m]) := by
  rw [size_append, h.bytes]
  rfl

theorem Inv.popped (h : Inv σ) {ms : List Outgoing} (hq : σ.mSendQueue.queue = m :: ms)
    (as : List (Option Errno)) (r : Bool) : Inv ((σ.handed m as r).popped m) := by
  obtain ⟨channels, heq⟩ := popped_eq hq as r
  rw [heq]
  have hamount := h.amount
  rw [hq] at hamount
  have hself : σ.mBufferedAmount m.stream - message_size_func m.message =
      buffered m.stream ms + buffered m.stream σ.mDropped := by
    rw [hamount, buffered, if_pos rfl]
    omega
  have hother : ∀ s, s ≠ m.stream → σ.mBufferedAmount s = buffered s ms + buffered s σ.mDropped := by
    intro s hs
    rw [hamount, buffered, if_neg (Ne.symm hs), Nat.zero_add]
  refine ⟨?_, h.calls_handed m, congrFun (Function.update_eq_iff.mpr ⟨hself, hother⟩), h.dropped, ?_,
    h.once_handed m, h.bytes_handed m⟩
  · exact h.conserved.pop (x := m) (by simp [Fifo.pop, hq])
  · intro hshut
    have hnil := (h.closed hshut).2
    rw [hq] at hnil
    exact absurd hnil (by simp)

theorem Inv.passed (h : Inv σ) (hq : σ.mSendQueue.queue = []) (m : Outgoing) (as : List (Option Errno))
    (r : Bool) : Inv ((σ.handed m as r).pass m) :=
  ⟨h.conserved.pass hq m, h.calls_handed m, h.amount, h.dropped, h.closed, h.once_handed m, h.bytes_handed m⟩

/-- The bytes on a stream with one message more. -/
theorem buffered_push (stream : Nat) (ms : List Outgoing) (m : Outgoing) :
    buffered stream (ms ++ [m]) =
      buffered stream ms + if m.stream = stream then message_size_func m.message else 0 := by
  rw [buffered_append, buffered]
  rfl

/-- A message waits, or it is pushed on the stopped queue. Its bytes are counted either way. -/
theorem Inv.wait (h : Inv σ) (m : Outgoing) : Inv (σ.wait m).1 := by
  obtain ⟨channels, heq⟩ :=
    updateBufferedAmount_frame (σ.push m) m.stream (message_size_func m.message)
  show Inv ((σ.push m).updateBufferedAmount m.stream (message_size_func m.message))
  rw [heq, amount_add]
  unfold Transport.push
  by_cases hs : σ.mStopping = true
  · have hself : σ.mBufferedAmount m.stream + message_size_func m.message =
        buffered m.stream σ.mSendQueue.queue + buffered m.stream (σ.mDropped ++ [m]) := by
      rw [h.amount, buffered_push, if_pos rfl, Nat.add_assoc]
    have hother : ∀ s, s ≠ m.stream →
        σ.mBufferedAmount s = buffered s σ.mSendQueue.queue + buffered s (σ.mDropped ++ [m]) := by
      intro s hne
      rw [h.amount, buffered_push, if_neg (Ne.symm hne), Nat.add_zero]
    rw [if_pos hs]
    exact ⟨h.conserved, h.calls, congrFun (Function.update_eq_iff.mpr ⟨hself, hother⟩),
      fun hrun => absurd hs (by simpa using hrun), h.closed, h.once, h.bytes⟩
  · have hself : σ.mBufferedAmount m.stream + message_size_func m.message =
        buffered m.stream (σ.mSendQueue.queue ++ [m]) + buffered m.stream σ.mDropped := by
      rw [h.amount, buffered_push, if_pos rfl]
      omega
    have hother : ∀ s, s ≠ m.stream →
        σ.mBufferedAmount s = buffered s (σ.mSendQueue.queue ++ [m]) + buffered s σ.mDropped := by
      intro s hne
      rw [h.amount, buffered_push, if_neg (Ne.symm hne), Nat.add_zero]
    rw [if_neg hs]
    exact ⟨h.conserved.push m, h.calls, congrFun (Function.update_eq_iff.mpr ⟨hself, hother⟩), h.dropped,
      fun hshut => absurd (h.closed hshut).1 hs, h.once, h.bytes⟩

theorem Inv.shutdown (h : Inv σ) (hq : σ.mSendQueue.queue = []) : Inv σ.shutdown := by
  have hcalls : (σ.calls ++ [Call.shutdown false]).filter Call.isMessage = σ.mSendQueue.popped.map Outgoing.call := by
    rw [List.filter_append, h.calls]
    exact List.append_nil _
  rcases shutdown_cases σ with ⟨heq, _⟩ | ⟨hrun, hshut, as, hτ⟩
  · rw [heq]
    exact h
  · have hstop : σ.mStopping = true := by
      simpa [Transport.running, hq] using hrun
    have honce : (σ.calls ++ [Call.shutdown false]).count (Call.shutdown false) = 1 := by
      rw [List.count_append, h.once, if_neg (by simp [hshut])]
      rfl
    rcases hτ with hτ | hτ <;> rw [hτ] <;>
      exact ⟨h.conserved, hcalls, h.amount, h.dropped, fun _ => ⟨hstop, hq⟩, honce, h.bytes⟩

theorem inv_closed : Closed Inv where
  held _ _ _ h := ⟨h.conserved, h.calls, h.amount, h.dropped, h.closed, h.once, h.bytes⟩
  popped _ _ _ as r h _ hq := h.popped hq as r
  shutdown _ h hq := h.shutdown hq
  state _ _ _ _ h := ⟨h.conserved, h.calls, h.amount, h.dropped, h.closed, h.once, h.bytes⟩
  receive _ _ _ _ _ _ _ _ _ h := ⟨h.conserved, h.calls, h.amount, h.dropped, h.closed, h.once, h.bytes⟩
  schedule _ _ _ _ h := ⟨h.conserved, h.calls, h.amount, h.dropped, h.closed, h.once, h.bytes⟩
  passed _ m as r h _ hq := h.passed hq m as r
  wait _ m h := h.wait m
  stop σ h := by
    refine ⟨h.conserved, h.calls, h.amount, fun hrun => absurd hrun (by simp), ?_, h.once, h.bytes⟩
    exact fun hshut => ⟨rfl, (h.closed hshut).2⟩
  abort σ h := by
    refine ⟨h.conserved, ?_, h.amount, h.dropped, h.closed, ?_, h.bytes⟩
    · show (σ.calls ++ [Call.shutdown true]).filter Call.isMessage = _
      rw [List.filter_append, h.calls]
      exact List.append_nil _
    · show (σ.calls ++ [Call.shutdown true]).count (.shutdown false) = _
      rw [List.count_append, h.once]
      rfl

theorem Inv.init : Inv Transport.init where
  conserved := Fifo.conserved_empty
  calls     := rfl
  amount _  := rfl
  dropped _ := rfl
  closed h  := absurd h (by simp [Transport.init])
  once      := rfl
  bytes     := rfl

/-- The table of channels has no part in what is sent. -/
theorem Inv.channels (h : Inv σ) (channels : Nat → Option Channel) : Inv { σ with channels } :=
  ⟨h.conserved, h.calls, h.amount, h.dropped, h.closed, h.once, h.bytes⟩

theorem Inv.step (h : Inv σ) {a : Act} (hstep : Sctp.step cfg σ a = some τ) : Inv τ := by
  cases a with
  | register stream =>
      simp only [Sctp.step, Option.ite_none_right_eq_some, Option.some.injEq] at hstep
      exact hstep.2 ▸ h.channels _
  | unregister stream => exact Option.some.inj hstep ▸ h.channels _
  | setBufferedAmountLowThreshold stream n =>
      simp only [Sctp.step] at hstep
      split at hstep
      · exact absurd hstep (by simp)
      · exact Option.some.inj hstep ▸ h.channels _
  | _ => exact inv_closed.step hstep (by simp) (by simp) (by simp) h

theorem Inv.run (h : Path (Sctp.step cfg) Any Transport.init σ) : Inv σ :=
  h.invariant (fun _ _ _ hi _ hs => hi.step hs) Inv.init

/-! ## What is accepted -/

/-- What `send` puts in. It takes a message when it returns `true`, and when it returns `false` while the
    transport is connected and the queue is not stopped; on an exception it takes nothing. -/
def taken (σ : Transport) (m : Outgoing) : Except Exception Bool → List Outgoing
  | .ok true  => [m]
  | .ok false => if σ.mState = .Connected ∧ σ.mStopping = false then [m] else []
  | .error _  => []

/-- What a call puts in. -/
def accepts (cfg : Config) (σ : Transport) : Act → List Outgoing
  | .send (some m) answers => taken σ m (({ σ with answers } : Transport).send cfg (some m)).2
  | .closeStream stream => if σ.mStopping then [] else [.reset stream]
  | _ => []

/-- What a run puts in, in order. -/
def accepted (cfg : Config) (σ : Transport) (as : List Act) : List Outgoing :=
  collect (Sctp.step cfg) (accepts cfg) σ as

/-- Nothing was put in since `σ`, and the queue runs or stands still as then. -/
def Quiet (σ τ : Transport) : Prop :=
  τ.mSendQueue.pushed = σ.mSendQueue.pushed ∧ τ.mStopping = σ.mStopping

theorem quiet_kept (σ : Transport) : Kept (Quiet σ) where
  held _ _ _ h := h
  popped _ _ _ as r h _ hq := by
    obtain ⟨channels, heq⟩ := popped_eq hq as r
    rw [heq]
    exact h
  shutdown τ h _ := by
    rcases shutdown_cases τ with ⟨heq, _⟩ | ⟨_, _, as, heq | heq⟩ <;> rw [heq] <;> exact h
  state _ _ _ _ h := h
  receive _ _ _ _ _ _ _ _ _ h := h
  schedule _ _ _ _ h := h

theorem Quiet.refl (σ : Transport) : Quiet σ σ := ⟨rfl, rfl⟩

theorem wait_pushed (σ : Transport) (m : Outgoing) :
    (σ.wait m).1.mSendQueue.pushed = σ.mSendQueue.pushed ++ if σ.mStopping then [] else [m] := by
  obtain ⟨channels, heq⟩ :=
    updateBufferedAmount_frame (σ.push m) m.stream (message_size_func m.message)
  show ((σ.push m).updateBufferedAmount m.stream (message_size_func m.message)).mSendQueue.pushed = _
  rw [heq]
  unfold Transport.push
  by_cases h : σ.mStopping = true
  · rw [if_pos h, if_pos h, List.append_nil]
  · rw [if_neg h, if_neg h]
    rfl

/-- What `send` puts in follows from what it returns. -/
theorem send_pushed (cfg : Config) (σ : Transport) (m : Outgoing) :
    (σ.send cfg (some m)).1.mSendQueue.pushed =
      σ.mSendQueue.pushed ++ taken σ m (σ.send cfg (some m)).2 := by
  unfold Transport.send
  by_cases hs : σ.mState = .Connected
  · rw [if_neg (not_not.mpr hs)]
    dsimp only
    split
    · exact (List.append_nil _).symm
    · have hq := (quiet_kept σ).toSends.trySendQueue (Quiet.refl σ)
      generalize σ.trySendQueue = r at hq
      -- the queue takes the message unless it is stopped
      have hwait : ∀ τ, Quiet σ τ → (τ.wait m).1.mSendQueue.pushed = σ.mSendQueue.pushed ++
          taken σ m (.ok false) := by
        intro τ hτ
        rw [wait_pushed, hτ.1, hτ.2]
        cases hstop : σ.mStopping <;> simp [taken, hs, hstop]
      rcases r with ⟨τ, e | _ | _⟩
      · exact hq.1.trans (List.append_nil _).symm
      · exact hwait τ hq
      · dsimp only at hq ⊢
        rcases trySendMessage_cases τ m with ⟨as, r, ht, _, _⟩ | ⟨as, r, res, ht, hres, _⟩
        · rw [ht]
          exact congrArg (· ++ [m]) hq.1
        · rw [ht]
          rcases res with e | _ | _
          · exact hq.1.trans (List.append_nil _).symm
          · exact hwait (τ.held as r) hq
          · exact absurd rfl hres
  · rw [if_pos hs]
    simp [taken, hs]

/-- **What a step puts in.** -/
theorem step_pushed {a : Act} (hstep : Sctp.step cfg σ a = some τ) :
    τ.mSendQueue.pushed = σ.mSendQueue.pushed ++ accepts cfg σ a := by
  have hquiet : ∀ {τ}, Quiet σ τ → τ.mSendQueue.pushed = σ.mSendQueue.pushed ++ [] :=
    fun h => h.1.trans (List.append_nil _).symm
  have hk := quiet_kept σ
  cases a with
  | start =>
      simp only [Sctp.step, Option.ite_none_right_eq_some, Option.some.injEq] at hstep
      exact hquiet (hstep.2 ▸ Quiet.refl σ)
  | incoming =>
      simp only [Sctp.step] at hstep
      split at hstep <;> exact hquiet (Option.some.inj hstep ▸ Quiet.refl σ)
  | send message answers =>
      cases message with
      | none =>
          obtain rfl := Option.some.inj hstep
          refine hquiet ?_
          show Quiet σ (({ σ with answers } : Transport).send cfg none).1
          unfold Transport.send
          split
          · exact Quiet.refl σ
          · exact hk.toSends.trySendQueue (hk.held σ answers σ.refused (Quiet.refl σ))
      | some m =>
          obtain rfl := Option.some.inj hstep
          exact send_pushed cfg { σ with answers } m
  | closeStream stream =>
      obtain rfl := Option.some.inj hstep
      show (σ.push (.reset stream)).mSendQueue.pushed = _
      rw [← wait_reset, wait_pushed]
      rfl
  | close =>
      obtain rfl := Option.some.inj hstep
      refine (?_ : σ.close.mSendQueue.pushed = σ.mSendQueue.pushed).trans (List.append_nil _).symm
      unfold Transport.close
      dsimp only
      split <;> rfl
  | upcall read write =>
      exact hquiet (Option.some.inj hstep ▸ Unscheduled.handleUpcall hk.schedule read write (Quiet.refl σ))
  | task answers => exact hquiet (hk.task hstep (Quiet.refl σ))
  | arrive chunks => exact hquiet (Option.some.inj hstep ▸ Quiet.refl σ)
  | register stream =>
      simp only [Sctp.step, Option.ite_none_right_eq_some, Option.some.injEq] at hstep
      exact hquiet (hstep.2 ▸ Quiet.refl σ)
  | unregister stream => exact hquiet (Option.some.inj hstep ▸ Quiet.refl σ)
  | setBufferedAmountLowThreshold stream n =>
      simp only [Sctp.step] at hstep
      split at hstep
      · exact absurd hstep (by simp)
      · exact hquiet (Option.some.inj hstep ▸ Quiet.refl σ)

/-! ## In order, once -/

/-- What the socket took and what waits is what was put in. -/
theorem accounted {as : List Act} (h : exec (Sctp.step cfg) Any Transport.init as = some σ) :
    σ.calls.filter Call.isMessage ++ σ.mSendQueue.queue.map Outgoing.call =
      (accepted cfg .init as).map Outgoing.call := by
  have hi := Inv.run (Path.of_exec h)
  have hpushed : σ.mSendQueue.pushed = accepted cfg .init as :=
    exec_collect (L := fun σ => σ.mSendQueue.pushed) (fun _ _ _ hs => step_pushed hs) h
  rw [hi.calls, ← List.map_append, ← hpushed]
  exact congrArg (List.map Outgoing.call) hi.conserved

/-- A notification of the association, whose `sac_state` is `state`. -/
def assocChange (state : UInt8) : Chunk :=
  { data := [1, 0, 0, 0, 20, 0, 0, 0, state, 0, 0, 0, 16, 0, 16, 0, 0, 0, 0, 0], notification := true, eor := true,
    info := none }

def text (stream : Nat) (data : Bytes) : Outgoing :=
  { stream, message := { type := .String, data, reliability := none, source := none } }

/-- The association comes up. -/
def connect : List Act := [.start, .arrive [assocChange 1], .upcall true false, .task []]

/-- A text goes out, two wait, and the transport is closed before the socket takes them. -/
def session : List Act :=
  connect ++ [.send (some (text 0 [1])) [none], .send (some (text 0 [2, 3])) [], .send (some (text 2 [])) [],
    .closeStream 0, .close, .upcall false true, .task [none], .task [none, none]]

def machine : Config := { mMaxMessageSize := 8, notification := littleEndian }

end HxDatachannel.Sctp
