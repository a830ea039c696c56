import HxDatachannel.Sctp.Amount

/-!
# `Sctp.Wakeup` — nothing waits for ever

What waits in the queue is sent by a later flush. `Live`: while the association is up and something waits,
the socket refused the last message, and usrsctp will report that it can be written again, or a flush is
queued in the processor. `Pending`: the counters that keep the transport from queueing a task twice count
the tasks that are queued, so no upcall is lost.
-/

namespace HxDatachannel.Sctp

open Lts

variable {cfg : Config} {σ τ : Transport} {m : Outgoing}

/-- Something is still to be done: a message waits, or the queue was stopped and the socket is not shut
    down. -/
def Waits (σ : Transport) : Prop :=
  σ.mSendQueue.queue ≠ [] ∨ (σ.mStopping = true ∧ σ.mSendShutdown = false)

/-- A flush is queued. -/
def Woken (σ : Transport) : Prop := .doFlush ∈ σ.mProcessor ∨ .flush ∈ σ.mProcessor

/-- What waits, waits for the socket. -/
def Settled (σ : Transport) : Prop := σ.mState = .Connected → Waits σ → σ.refused = true

/-- What waits, waits for the socket or for a flush. What was queued before the association came up is left
    out. -/
def Live (σ : Transport) : Prop :=
  σ.mState = .Connected → Waits σ → σ.refused = true ∨ Woken σ ∨ σ.early = true

/-- The counters count the tasks, and no task is queued twice. -/
structure Pending (σ : Transport) : Prop where
  recv      : σ.mPendingRecvCount = σ.mProcessor.count .doRecv
  recv_le   : σ.mPendingRecvCount ≤ 1
  flush     : σ.mPendingFlushCount = σ.mProcessor.count .doFlush
  flush_le  : σ.mPendingFlushCount ≤ 1

theorem Settled.live (h : Settled σ) : Live σ := fun hs hw => .inl (h hs hw)

theorem live_of_not_connected (h : σ.mState ≠ .Connected) : Live σ := fun hs => absurd hs h

/-! ## After the queue was tried -/

theorem shutdown_not_waits (hq : σ.mSendQueue.queue = []) : ¬ Waits σ.shutdown := by
  rintro (hne | ⟨hstop, hshut⟩)
  · rw [shutdown_queue] at hne
    exact hne hq
  · rcases shutdown_cases σ with ⟨heq, hrun | hdone⟩ | ⟨_, _, as, heq | heq⟩
    · rw [heq] at hstop
      simp [Transport.running, hq, hstop] at hrun
    · rw [heq, hdone] at hshut
      exact absurd hshut (by simp)
    · rw [heq] at hshut
      exact absurd hshut (by simp)
    · rw [heq] at hshut
      exact absurd hshut (by simp)

/-- `trySendQueue` says that all is done, or the socket refused a message. -/
theorem trySendQueue_cases (σ : Transport) :
    (σ.trySendQueue.2 = .ok true ∧ ¬ Waits σ.trySendQueue.1) ∨
    (σ.trySendQueue.2 ≠ .ok true ∧ (σ.trySendQueue.1.mState = .Connected → σ.trySendQueue.1.refused = true)) := by
  unfold Transport.trySendQueue
  generalize hq : σ.mSendQueue.queue = q
  induction q generalizing σ with
  | nil => exact .inl ⟨rfl, shutdown_not_waits hq⟩
  | cons m ms ih =>
      rcases trySendMessage_cases σ m with ⟨as, r, ht, _, _⟩ | ⟨as, r, res, ht, hres, hr⟩
      · simp only [Transport.trySendQueue.loop, ht]
        exact ih _ (popped_queue hq)
      · simp only [Transport.trySendQueue.loop, ht]
        rcases res with e | _ | _
        · exact .inr ⟨by simp, hr⟩
        · exact .inr ⟨by simp, hr⟩
        · exact absurd rfl hres

theorem trySendQueue_settled (σ : Transport) : Settled σ.trySendQueue.1 := by
  intro hs hw
  rcases trySendQueue_cases σ with ⟨_, hn⟩ | ⟨_, hr⟩
  · exact absurd hw hn
  · exact hr hs

theorem wait_refused (σ : Transport) (m : Outgoing) :
    (σ.wait m).1.refused = σ.refused ∧ (σ.wait m).1.mState = σ.mState := by
  obtain ⟨channels, heq⟩ :=
    updateBufferedAmount_frame (σ.push m) m.stream (message_size_func m.message)
  show ((σ.push m).updateBufferedAmount m.stream (message_size_func m.message)).refused = _ ∧
    ((σ.push m).updateBufferedAmount m.stream (message_size_func m.message)).mState = _
  rw [heq]
  unfold Transport.push
  split <;> exact ⟨rfl, rfl⟩

/-- A message that waits on a refusing socket waits for the socket. -/
theorem wait_settled (h : σ.mState = .Connected → σ.refused = true) (m : Outgoing) :
    Settled (σ.wait m).1 := by
  intro hs _
  obtain ⟨hr, hstate⟩ := wait_refused σ m
  rw [hr]
  exact h (hstate ▸ hs)

theorem Live.send (h : Live σ) (message : Option Outgoing) : Live (σ.send cfg message).1 := by
  unfold Transport.send
  split
  · exact h
  · cases message with
    | none => exact (trySendQueue_settled σ).live
    | some m =>
        dsimp only
        split
        · exact h
        · have hq := trySendQueue_cases σ
          have hsettled := trySendQueue_settled σ
          generalize σ.trySendQueue = r at hq hsettled
          rcases r with ⟨τ, e | _ | _⟩
          · exact hsettled.live
          · rcases hq with ⟨hok, _⟩ | ⟨_, hr⟩
            · exact absurd hok (by simp)
            · exact (wait_settled hr m).live
          · rcases hq with ⟨_, hn⟩ | ⟨hno, _⟩
            · dsimp only at hn ⊢
              rcases trySendMessage_cases τ m with ⟨as, r, ht, _, _⟩ | ⟨as, r, res, ht, hres, hr⟩
              · rw [ht]
                exact fun _ hw => absurd hw hn
              · rw [ht]
                rcases res with e | _ | _
                · exact fun _ hw => absurd hw hn
                · exact (wait_settled (σ := τ.held as r) hr m).live
                · exact absurd rfl hres
            · exact absurd rfl hno

theorem Live.flush (h : Live σ) : Live σ.flush := by
  unfold Transport.flush
  split
  · exact h
  · exact (trySendQueue_settled σ).live

/-! ## Receiving -/

/-- An association that comes up again finds what was live before. -/
theorem Live.up (h : Live σ) (inbound outbound : Nat) : Live (σ.up inbound outbound) := by
  intro _ hw
  by_cases hs : σ.mState = .Connected
  · rcases h hs hw with hr | hwoken | hearly
    · exact .inl hr
    · exact .inr (.inl hwoken)
    · exact .inr (.inr (by simp [Transport.up, hearly]))
  · refine .inr (.inr ?_)
    rcases hw with hne | ⟨hstop, _⟩
    · have hne : σ.mSendQueue.queue ≠ [] := hne
      simp [Transport.up, hs, hne]
    · have hstop : σ.mStopping = true := hstop
      simp [Transport.up, hs, hstop]

theorem live_receives : Receives Live where
  receive _ _ _ _ _ _ _ _ _ h := h
  down _ _ _ hs := live_of_not_connected hs
  up _ inbound outbound h := h.up inbound outbound
  flush _ h := h.flush

/-- The tasks and their counters are those of `σ`. -/
structure SameTasks (σ τ : Transport) : Prop where
  tasks   : τ.mProcessor = σ.mProcessor
  recvs   : τ.mPendingRecvCount = σ.mPendingRecvCount
  flushes : τ.mPendingFlushCount = σ.mPendingFlushCount

theorem SameTasks.refl (σ : Transport) : SameTasks σ σ := ⟨rfl, rfl, rfl⟩

/-- A task that runs queues no task. -/
theorem sameTasks_works (σ : Transport) : Works (SameTasks σ) where
  held _ _ _ h := ⟨h.tasks, h.recvs, h.flushes⟩
  popped _ _ _ as r h _ hq := by
    obtain ⟨channels, heq⟩ := popped_eq hq as r
    rw [heq]
    exact ⟨h.tasks, h.recvs, h.flushes⟩
  shutdown τ h _ := by
    rcases shutdown_cases τ with ⟨heq, _⟩ | ⟨_, _, as, heq | heq⟩ <;> rw [heq] <;>
      exact ⟨h.tasks, h.recvs, h.flushes⟩
  receive _ _ _ _ _ _ _ _ _ h := ⟨h.tasks, h.recvs, h.flushes⟩
  state _ _ _ _ h := ⟨h.tasks, h.recvs, h.flushes⟩

theorem sameTasks_wait (σ : Transport) (m : Outgoing) : SameTasks σ (σ.wait m).1 := by
  obtain ⟨channels, heq⟩ :=
    updateBufferedAmount_frame (σ.push m) m.stream (message_size_func m.message)
  show SameTasks σ ((σ.push m).updateBufferedAmount m.stream (message_size_func m.message))
  rw [heq]
  unfold Transport.push
  split <;> exact ⟨rfl, rfl, rfl⟩

theorem SameTasks.trans {ρ : Transport} (h : SameTasks σ τ) (h' : SameTasks τ ρ) : SameTasks σ ρ :=
  ⟨h'.tasks.trans h.tasks, h'.recvs.trans h.recvs, h'.flushes.trans h.flushes⟩

theorem sameTasks_puts (σ : Transport) : Puts (SameTasks σ) :=
  { (sameTasks_works σ).toSends with
    passed := fun _ _ _ _ h _ _ => ⟨h.tasks, h.recvs, h.flushes⟩
    wait := fun τ m h => h.trans (sameTasks_wait τ m) }

/-! ## The counters -/

theorem Pending.same (h : Pending σ) (hs : SameTasks σ τ) : Pending τ := by
  refine ⟨?_, ?_, ?_, ?_⟩
  · rw [hs.recvs, hs.tasks, h.recv]
  · rw [hs.recvs]
    exact h.recv_le
  · rw [hs.flushes, hs.tasks, h.flush]
  · rw [hs.flushes]
    exact h.flush_le

/-- `flush` is not counted. -/
theorem Pending.flush_task (h : Pending σ) : Pending (σ.enqueue .flush) := by
  refine ⟨?_, h.recv_le, ?_, h.flush_le⟩ <;>
    simp [Transport.enqueue, List.count_append, h.recv, h.flush]

theorem Pending.enqueueRecv (h : Pending σ) :
    Pending σ.enqueueRecv ∧ .doRecv ∈ σ.enqueueRecv.mProcessor := by
  unfold Transport.enqueueRecv
  split
  · rename_i hpos
    exact ⟨h, List.count_pos_iff.mp (h.recv ▸ hpos)⟩
  · rename_i hzero
    have hr := h.recv
    have hf := h.flush
    refine ⟨⟨?_, ?_, ?_, h.flush_le⟩, by simp [Transport.enqueue]⟩
    · simp [Transport.enqueue, List.count_append, hr]
    · show σ.mPendingRecvCount + 1 ≤ 1
      omega
    · simp [Transport.enqueue, List.count_append, hf]

theorem Pending.enqueueFlush (h : Pending σ) :
    Pending σ.enqueueFlush ∧ .doFlush ∈ σ.enqueueFlush.mProcessor := by
  unfold Transport.enqueueFlush
  split
  · rename_i hpos
    exact ⟨h, List.count_pos_iff.mp (h.flush ▸ hpos)⟩
  · rename_i hzero
    have hr := h.recv
    have hf := h.flush
    refine ⟨⟨?_, h.recv_le, ?_, ?_⟩, by simp [Transport.enqueue]⟩
    · simp [Transport.enqueue, List.count_append, hr]
    · simp [Transport.enqueue, List.count_append, hf]
    · show σ.mPendingFlushCount + 1 ≤ 1
      omega

/-- A task that begins is counted no more. -/
theorem Pending.run (h : Pending σ) {t : Task} {ts : List Task} {answers : List (Option Errno)}
    (hp : σ.mProcessor = t :: ts) :
    Pending (({ σ with mProcessor := ts, answers } : Transport).run cfg t) := by
  obtain ⟨hr, hrle, hf, hfle⟩ := h
  rw [hp] at hr hf
  cases t with
  | doRecv =>
      have hcount : Pending { σ with
          mProcessor := ts, answers, mPendingRecvCount := σ.mPendingRecvCount - 1 } := by
        refine ⟨?_, Nat.le_trans (Nat.sub_le _ _) hrle, ?_, hfle⟩
        · simp [hr]
        · simpa using hf
      exact hcount.same ((sameTasks_works _).toReceives.doRecv_loop _ (SameTasks.refl _))
  | doFlush =>
      have hcount : Pending { σ with
          mProcessor := ts, answers, mPendingFlushCount := σ.mPendingFlushCount - 1 } := by
        refine ⟨?_, hrle, ?_, Nat.le_trans (Nat.sub_le _ _) hfle⟩
        · simpa using hr
        · simp [hf]
      exact hcount.same ((sameTasks_works _).toSends.trySendQueue (SameTasks.refl _))
  | flush =>
      have hcount : Pending { σ with mProcessor := ts, answers } := by
        refine ⟨?_, hrle, ?_, hfle⟩
        · simpa using hr
        · simpa using hf
      exact hcount.same ((sameTasks_works _).toSends.flush (SameTasks.refl _))

theorem Pending.init : Pending Transport.init := ⟨rfl, Nat.zero_le 1, rfl, Nat.zero_le 1⟩

theorem Pending.step (h : Pending σ) {a : Act} (hstep : Sctp.step cfg σ a = some τ) : Pending τ := by
  cases a with
  | start =>
      simp only [Sctp.step, Option.ite_none_right_eq_some, Option.some.injEq] at hstep
      exact hstep.2 ▸ h.same ⟨rfl, rfl, rfl⟩
  | incoming =>
      simp only [Sctp.step] at hstep
      split at hstep <;> exact Option.some.inj hstep ▸ h.same ⟨rfl, rfl, rfl⟩
  | send message answers =>
      obtain rfl := Option.some.inj hstep
      exact h.same ((sameTasks_puts σ).send message ⟨rfl, rfl, rfl⟩)
  | closeStream stream =>
      obtain rfl := Option.some.inj hstep
      exact (h.same (wait_reset σ stream ▸ sameTasks_wait σ (.reset stream))).flush_task
  | close =>
      obtain rfl := Option.some.inj hstep
      have hstop : Pending { σ with mStopping := true } := h.same ⟨rfl, rfl, rfl⟩
      unfold Transport.close
      dsimp only
      split
      · exact hstop.flush_task
      · exact h.same ⟨rfl, rfl, rfl⟩
      · exact hstop
  | upcall read write =>
      obtain rfl := Option.some.inj hstep
      cases read with
      | false =>
          cases write with
          | false => exact h
          | true => exact h.enqueueFlush.1
      | true =>
          cases write with
          | false => exact h.enqueueRecv.1
          | true => exact h.enqueueRecv.1.enqueueFlush.1
  | task answers =>
      simp only [Sctp.step] at hstep
      split at hstep
      · exact absurd hstep (by simp)
      · rename_i t ts hp
        exact Option.some.inj hstep ▸ h.run hp
  | arrive chunks => exact Option.some.inj hstep ▸ h.same ⟨rfl, rfl, rfl⟩
  | register stream =>
      simp only [Sctp.step, Option.ite_none_right_eq_some, Option.some.injEq] at hstep
      exact hstep.2 ▸ h.same ⟨rfl, rfl, rfl⟩
  | unregister stream => exact Option.some.inj hstep ▸ h.same ⟨rfl, rfl, rfl⟩
  | setBufferedAmountLowThreshold stream n =>
      simp only [Sctp.step] at hstep
      split at hstep
      · exact absurd hstep (by simp)
      · exact Option.some.inj hstep ▸ h.same ⟨rfl, rfl, rfl⟩

theorem Pending.of_run (h : Path (Sctp.step cfg) Any Transport.init σ) : Pending σ :=
  h.invariant (fun _ _ _ hi _ hs => hi.step hs) Pending.init

/-! ## Runs -/

/-- More tasks are queued. -/
theorem Live.schedule (h : Live σ) (tasks : List Task) (recvs flushes : Nat)
    (ht : .doFlush ∈ σ.mProcessor → .doFlush ∈ tasks) (hf : .flush ∈ σ.mProcessor → .flush ∈ tasks) :
    Live { σ with mProcessor := tasks, mPendingRecvCount := recvs, mPendingFlushCount := flushes } := by
  intro hs hw
  rcases h hs hw with hr | hwoken | hearly
  · exact .inl hr
  · exact .inr (.inl (hwoken.imp ht hf))
  · exact .inr (.inr hearly)

theorem Live.enqueueRecv (h : Live σ) : Live σ.enqueueRecv := by
  unfold Transport.enqueueRecv
  split
  · exact h
  · exact h.schedule _ _ _ (List.mem_append_left _) (List.mem_append_left _)

theorem Live.enqueueFlush (h : Live σ) : Live σ.enqueueFlush := by
  unfold Transport.enqueueFlush
  split
  · exact h
  · exact h.schedule _ _ _ (List.mem_append_left _) (List.mem_append_left _)

theorem live_of_flush (h : .flush ∈ σ.mProcessor) : Live σ := fun _ _ => .inr (.inl (.inr h))

theorem mem_enqueue (σ : Transport) (t : Task) : t ∈ (σ.enqueue t).mProcessor := by
  simp [Transport.enqueue]

theorem Live.run (h : Live σ) {t : Task} {ts : List Task} {answers : List (Option Errno)}
    (hp : σ.mProcessor = t :: ts) :
    Live (({ σ with mProcessor := ts, answers } : Transport).run cfg t) := by
  cases t with
  | doRecv =>
      refine live_receives.doRecv_loop _ ?_
      refine Live.schedule (σ := { σ with answers }) h ts _ _ ?_ ?_ <;>
        · intro hmem
          have hmem := hp ▸ hmem
          simpa using hmem
  | doFlush => exact (trySendQueue_settled _).live
  | flush =>
      show Live (Transport.flush _)
      unfold Transport.flush
      split
      · rename_i hs
        exact live_of_not_connected hs
      · exact (trySendQueue_settled _).live

theorem Live.step (h : Live σ) {a : Act} (hstep : Sctp.step cfg σ a = some τ) : Live τ := by
  cases a with
  | start =>
      simp only [Sctp.step, Option.ite_none_right_eq_some, Option.some.injEq] at hstep
      exact hstep.2 ▸ live_of_not_connected (by simp [Transport.changeState])
  | incoming =>
      simp only [Sctp.step] at hstep
      split at hstep
      · exact Option.some.inj hstep ▸ h
      · exact Option.some.inj hstep ▸ live_of_not_connected (by simp [Transport.changeState, Transport.recv])
  | send message answers =>
      obtain rfl := Option.some.inj hstep
      exact Live.send (σ := { σ with answers }) h message
  | closeStream stream =>
      obtain rfl := Option.some.inj hstep
      exact live_of_flush (mem_enqueue _ _)
  | close =>
      obtain rfl := Option.some.inj hstep
      unfold Transport.close
      dsimp only
      split
      · exact live_of_flush (mem_enqueue _ _)
      · exact live_of_not_connected (by simp [Transport.changeState])
      · rename_i hs _
        exact live_of_not_connected hs
  | upcall read write =>
      obtain rfl := Option.some.inj hstep
      cases read with
      | false =>
          cases write with
          | false => exact h
          | true => exact h.enqueueFlush
      | true =>
          cases write with
          | false => exact h.enqueueRecv
          | true => exact h.enqueueRecv.enqueueFlush
  | task answers =>
      simp only [Sctp.step] at hstep
      split at hstep
      · exact absurd hstep (by simp)
      · rename_i t ts hp
        exact Option.some.inj hstep ▸ h.run hp
  | arrive chunks => exact Option.some.inj hstep ▸ h
  | register stream =>
      simp only [Sctp.step, Option.ite_none_right_eq_some, Option.some.injEq] at hstep
      exact hstep.2 ▸ h
  | unregister stream => exact Option.some.inj hstep ▸ h
  | setBufferedAmountLowThreshold stream n =>
      simp only [Sctp.step] at hstep
      split at hstep
      · exact absurd hstep (by simp)
      · exact Option.some.inj hstep ▸ h

theorem Live.of_run (h : Path (Sctp.step cfg) Any Transport.init σ) : Live σ :=
  h.invariant (fun _ _ _ hi _ hs => hi.step hs) (live_of_not_connected (by simp [Transport.init]))

/-- The association is up, the socket took the last message, no flush is queued, and nothing was queued
    before the association came up. -/
structure Quiescent (σ : Transport) : Prop where
  connected : σ.mState = .Connected
  took      : σ.refused = false
  tasks     : ¬ Woken σ
  late      : σ.early = false

theorem Quiescent.not_waits (hq : Quiescent σ) (h : Path (Sctp.step cfg) Any Transport.init σ) :
    ¬ Waits σ := by
  intro hw
  rcases Live.of_run h hq.connected hw with hr | hwoken | hearly
  · exact absurd hr (by simp [hq.took])
  · exact hq.tasks hwoken
  · exact absurd hearly (by simp [hq.late])

/-! ## Results -/

/-- **Upcalls.** In every run an upcall leaves one task queued for each of its events, and never two. -/
theorem upcall_queued (h : Path (Sctp.step cfg) Any Transport.init σ) (read write : Bool) :
    (read = true → (σ.handleUpcall read write).mProcessor.count .doRecv = 1) ∧
    (write = true → (σ.handleUpcall read write).mProcessor.count .doFlush = 1) := by
  have hp := Pending.of_run h
  have hone : ∀ {τ : Transport} {t : Task} {n : Nat}, n = τ.mProcessor.count t → n ≤ 1 →
      t ∈ τ.mProcessor → τ.mProcessor.count t = 1 := by
    intro τ t n hn hle hmem
    have hpos := List.count_pos_iff.mpr hmem
    omega
  cases read with
  | false =>
      refine ⟨fun hr => absurd hr (by simp), ?_⟩
      rintro rfl
      obtain ⟨hp', hmem⟩ := hp.enqueueFlush
      exact hone hp'.flush hp'.flush_le hmem
  | true =>
      obtain ⟨hp', hmem⟩ := hp.enqueueRecv
      cases write with
      | false => exact ⟨fun _ => hone hp'.recv hp'.recv_le hmem, fun hw => absurd hw (by simp)⟩
      | true =>
          obtain ⟨hp'', hmem'⟩ := hp'.enqueueFlush
          refine ⟨fun _ => hone hp''.recv hp''.recv_le ?_, fun _ => hone hp''.flush hp''.flush_le hmem'⟩
          show .doRecv ∈ σ.enqueueRecv.enqueueFlush.mProcessor
          unfold Transport.enqueueFlush
          split
          · exact hmem
          · exact List.mem_append_left _ hmem

/-- Where nothing waits everything that was put in is sent. -/
theorem sent_of_not_waits {as : List Act} (h : exec (Sctp.step cfg) Any Transport.init as = some σ)
    (hn : ¬ Waits σ) :
    σ.calls.filter Call.isMessage = (accepted cfg .init as).map Outgoing.call ∧
    (∀ stream, σ.mBufferedAmount stream = buffered stream σ.mDropped) ∧
    (σ.mStopping = true → .shutdown false ∈ σ.calls) := by
  have hi := Inv.run (Path.of_exec h)
  have hnil : σ.mSendQueue.queue = [] := by
    by_contra hne
    exact hn (.inl hne)
  refine ⟨?_, ?_, ?_⟩
  · have hall := accounted h
    rwa [hnil, List.map_nil, List.append_nil] at hall
  · intro stream
    rw [hi.amount, hnil]
    exact Nat.zero_add _
  · intro hstop
    have hshut : σ.mSendShutdown = true := by
      by_contra hno
      exact hn (.inr ⟨hstop, by simpa using hno⟩)
    have hone := hi.once
    rw [if_pos hshut] at hone
    exact List.count_pos_iff.mp (by omega)

/-- **Nothing waits for ever.** When all is quiet, everything that was put in is sent, no amount is left but
    that of messages pushed on the stopped queue, and a queue that was stopped has shut the socket down. -/
theorem quiescent_sent {as : List Act} (h : exec (Sctp.step cfg) Any Transport.init as = some σ)
    (hq : Quiescent σ) :
    σ.calls.filter Call.isMessage = (accepted cfg .init as).map Outgoing.call ∧
    (∀ stream, σ.mBufferedAmount stream = buffered stream σ.mDropped) ∧
    (σ.mStopping = true → .shutdown false ∈ σ.calls) :=
  sent_of_not_waits h (hq.not_waits (Path.of_exec h))

/-- **A writer is called back.** A writer that sees its amount above the threshold is called back by the
    time all is quiet, unless the transport is closed. -/
theorem writer_called {stream : Nat} {c : Channel} (hσ : Path (Sctp.step cfg) Any Transport.init σ)
    (h : Path (Sctp.step cfg) (Keeps stream) σ τ) (hc : σ.channels stream = some c)
    (habove : c.bufferedAmountLowThreshold < c.bufferedAmount) (hq : Quiescent τ)
    (hstop : τ.mStopping = false) :
    ∃ c', τ.channels stream = some c' ∧ c'.bufferedAmount = 0 ∧ c.low < c'.low := by
  have hpath : Path (Sctp.step cfg) Any Transport.init τ := hσ.trans (h.weaken fun _ _ _ => trivial)
  have hi := Inv.run hpath
  obtain ⟨c', hc', ht, hr, hlow⟩ := Balanced.run h c hc
  have hnil : τ.mSendQueue.queue = [] := by
    by_contra hne
    exact hq.not_waits hpath (.inl hne)
  have hzero : τ.mBufferedAmount stream = 0 := by
    rw [hi.amount, hnil, hi.dropped hstop]
    rfl
  have hamount : c'.bufferedAmount = 0 := by
    rw [Heard.run hpath stream c' hc', hzero, ite_self]
  exact ⟨c', hc', hamount, low_of_balanced ht hr hlow habove (by omega)⟩

/-! ## A run -/

theorem upcall_queued_written :
    (written.handleUpcall true true).mProcessor.count .doRecv = 1 ∧
      (written.handleUpcall true true).mProcessor.count .doFlush = 1 :=
  ⟨(upcall_queued (Path.of_exec written_run) true true).1 rfl,
    (upcall_queued (Path.of_exec written_run) true true).2 rfl⟩

theorem quiescent_drained : Quiescent drained where
  connected := rfl
  took      := rfl
  tasks     := fun h => absurd h (by unfold Woken; decide)
  late      := rfl

theorem quiescent_sent_drained :
    drained.calls.filter Call.isMessage = (accepted machine .init (writing ++ draining)).map Outgoing.call ∧
    (∀ stream, drained.mBufferedAmount stream = buffered stream drained.mDropped) ∧
    (drained.mStopping = true → .shutdown false ∈ drained.calls) :=
  have h : exec (Sctp.step machine) Any .init (writing ++ draining) = some drained := rfl
  quiescent_sent h quiescent_drained

theorem writer_called_drained :
    ∃ c', drained.channels 0 = some c' ∧ c'.bufferedAmount = 0 ∧ 0 < c'.low := by
  have hc : written.channels 0 = some ⟨2, 1, true, 0, 1⟩ := rfl
  exact writer_called (Path.of_exec written_run) (Path.of_exec drained_run) hc (by decide) quiescent_drained rfl

end HxDatachannel.Sctp
