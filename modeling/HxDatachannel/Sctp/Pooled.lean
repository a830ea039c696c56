import HxDatachannel.Sctp.Wakeup
import HxDatachannel.Threads.Progress

/-!
# `Sctp.Pooled` — the transport on the thread pool

In `Sctp.Defs` the processor of a transport is a list of tasks, of which one step runs the first. Here it is a
`Processor` of the thread pool: the transport enqueues its tasks on it, and a worker runs what it took from the
pool, among whatever else the pool has to do. Every run of this system is one of `Sctp.step`
(`pooled_refines`), so that what holds of all runs of the transport holds here; `pooled_sent` is what comes of it
together with the progress of the workers.
-/

namespace HxDatachannel.Pooled

open Lts

/-- `mProcessor` of the transport is bookkeeping here: a worker runs the task that it has. -/
structure Host where
  system    : Threads.System Sctp.Task
  transport : Sctp.Transport

def Host.init : Host := { system := .init, transport := .init }

inductive Act where
  /-- A step of the transport that is no task; `notified` goes with the tasks that it enqueues. -/
  | transport (a : Sctp.Act) (notified : List (Option Nat))
  /-- A step of the pool that neither enqueues nor ends a task of the transport. -/
  | pool (a : Threads.Act Sctp.Task)
  /-- Worker `i` runs the task of the transport that it has. -/
  | task (i : Nat) (notified : Option Nat) (answers : List (Option Sctp.Errno))

/-- `mProcessor.enqueue`, task by task. -/
def submit (q : Nat) : List Sctp.Task → List (Option Nat) → Threads.System Sctp.Task →
    Option (Threads.System Sctp.Task)
  | [], _, s           => some s
  | _ :: _, [], _      => none
  | t :: ts, n :: ns, s => (Threads.step s (.enqueue q t n)).bind fun s => submit q ts ns s

def isTask : Sctp.Act → Bool
  | .task _ => true
  | _       => false

/-- One step, where the processor of the transport is processor `q` of the pool. -/
def step (cfg : Sctp.Config) (q : Nat) (h : Host) : Act → Option Host
  | .transport a notified =>
      if isTask a then none
      else
        (Sctp.step cfg h.transport a).bind fun σ =>
          (submit q (σ.mProcessor.drop h.transport.mProcessor.length) notified h.system).map fun s => ⟨s, σ⟩
  | .pool a =>
      if Threads.enqueued q h.system a = [] ∧ Threads.finished q h.system a = [] then
        (Threads.step h.system a).map fun s => { h with system := s }
      else none
  | .task i notified answers =>
      match Threads.finished q h.system (.finish i notified) with
      | t :: _ =>
          (Threads.step h.system (.finish i notified)).map fun s =>
            ⟨s, ({ h.transport with mProcessor := h.transport.mProcessor.tail, answers } : Sctp.Transport).run cfg t⟩
      | []     => none

/-- The step of the transport alone. -/
def acts (_ : Host) : Act → List Sctp.Act
  | .transport a _    => [a]
  | .pool _           => []
  | .task _ _ answers => [.task answers]

/-- What the pool has of the transport's tasks is what the transport thinks it has. -/
structure Mirrors (q : Nat) (h : Host) : Prop where
  inv   : Threads.Inv h.system
  live  : Threads.Live h.system.pool
  tasks : h.transport.mProcessor = (h.system.view q).serial.tasks

variable {cfg : Sctp.Config} {q : Nat}

/-! ## What the transport enqueues -/

/-- A step of the transport that is no task only appends to its tasks. -/
theorem step_appends {σ τ : Sctp.Transport} {a : Sctp.Act} (ha : isTask a = false)
    (h : Sctp.step cfg σ a = some τ) : σ.mProcessor <+: τ.mProcessor := by
  have hrecv : ∀ σ : Sctp.Transport, σ.mProcessor <+: σ.enqueueRecv.mProcessor := by
    intro σ
    unfold Sctp.Transport.enqueueRecv
    split
    · exact List.prefix_rfl
    · exact List.prefix_append _ _
  have hflush : ∀ σ : Sctp.Transport, σ.mProcessor <+: σ.enqueueFlush.mProcessor := by
    intro σ
    unfold Sctp.Transport.enqueueFlush
    split
    · exact List.prefix_rfl
    · exact List.prefix_append _ _
  cases a with
  | start =>
      simp only [Sctp.step, Option.ite_none_right_eq_some, Option.some.injEq] at h
      exact h.2 ▸ List.prefix_rfl
  | incoming =>
      simp only [Sctp.step] at h
      split at h <;> exact Option.some.inj h ▸ List.prefix_rfl
  | send message answers =>
      obtain rfl := Option.some.inj h
      have hsame : Sctp.SameTasks { σ with answers } (Sctp.Transport.send cfg { σ with answers } message).1 :=
        (Sctp.sameTasks_puts _).send message (Sctp.SameTasks.refl _)
      exact ⟨[], (List.append_nil _).trans hsame.tasks.symm⟩
  | closeStream stream =>
      obtain rfl := Option.some.inj h
      have hsame := Sctp.sameTasks_wait σ (.reset stream)
      rw [Sctp.wait_reset] at hsame
      show σ.mProcessor <+: (σ.push (.reset stream)).mProcessor ++ [.flush]
      rw [hsame.tasks]
      exact List.prefix_append _ _
  | close =>
      obtain rfl := Option.some.inj h
      unfold Sctp.Transport.close
      dsimp only
      split
      · exact List.prefix_append _ _
      · exact List.prefix_rfl
      · exact List.prefix_rfl
  | upcall read write =>
      obtain rfl := Option.some.inj h
      cases read with
      | false =>
          cases write with
          | false => exact List.prefix_rfl
          | true => exact hflush σ
      | true =>
          cases write with
          | false => exact hrecv σ
          | true => exact (hrecv σ).trans (hflush _)
  | task answers => exact absurd ha (by simp [isTask])
  | arrive chunks => exact Option.some.inj h ▸ List.prefix_rfl
  | register stream =>
      simp only [Sctp.step, Option.ite_none_right_eq_some, Option.some.injEq] at h
      exact h.2 ▸ List.prefix_rfl
  | unregister stream => exact Option.some.inj h ▸ List.prefix_rfl
  | setBufferedAmountLowThreshold stream n =>
      simp only [Sctp.step] at h
      split at h
      · exact absurd h (by simp)
      · exact Option.some.inj h ▸ List.prefix_rfl

/-- A task that runs enqueues none. -/
theorem run_tasks (σ : Sctp.Transport) (t : Sctp.Task) : (σ.run cfg t).mProcessor = σ.mProcessor := by
  have hworks := Sctp.sameTasks_works
  cases t with
  | doRecv =>
      exact ((hworks { σ with mPendingRecvCount := σ.mPendingRecvCount - 1 }).toReceives.doRecv_loop _
        (Sctp.SameTasks.refl _)).tasks
  | doFlush =>
      exact ((hworks { σ with mPendingFlushCount := σ.mPendingFlushCount - 1 }).toSends.trySendQueue
        (Sctp.SameTasks.refl _)).tasks
  | flush => exact ((hworks σ).toSends.flush (Sctp.SameTasks.refl _)).tasks

/-! ## What the pool has -/

theorem enqueued_enqueue (s : Threads.System Sctp.Task) (t : Sctp.Task) (n : Option Nat) :
    Threads.enqueued q s (.enqueue q t n) = [t] ∧ Threads.finished q s (.enqueue q t n) = [] := by
  simp [Threads.enqueued, Threads.finished, Threads.label, Threads.Label.enqueued, Threads.Label.finished]

/-- What is submitted is behind what the pool has. -/
theorem submit_tasks {ts : List Sctp.Task} {ns : List (Option Nat)} {s s' : Threads.System Sctp.Task}
    (hs : Threads.Inv s) (hlive : Threads.Live s.pool) (h : submit q ts ns s = some s') :
    Threads.Inv s' ∧ Threads.Live s'.pool ∧ (s'.view q).serial.tasks = (s.view q).serial.tasks ++ ts := by
  induction ts generalizing s ns with
  | nil =>
      obtain rfl := Option.some.inj h
      exact ⟨hs, hlive, (List.append_nil _).symm⟩
  | cons t ts ih =>
      cases ns with
      | nil => exact absurd h (by simp [submit])
      | cons n ns =>
          obtain ⟨u, hu, hrest⟩ := Option.bind_eq_some_iff.mp h
          obtain ⟨hs', hlive', htasks⟩ := ih (hs.kept hu) (hlive.kept hu) hrest
          have hone := Threads.step_tasks hs hu q
          rw [(enqueued_enqueue s t n).1, (enqueued_enqueue s t n).2, List.nil_append] at hone
          refine ⟨hs', hlive', ?_⟩
          rw [htasks, ← hone, List.append_assoc, List.singleton_append]

/-! ## Refinement -/

/-- **One step.** -/
theorem step_refines {h h' : Host} {a : Act} (hm : Mirrors q h) (hstep : step cfg q h a = some h') :
    Mirrors q h' ∧ exec (Sctp.step cfg) Any h.transport (acts h a) = some h'.transport := by
  obtain ⟨hinv, hlive, hmirror⟩ := hm
  cases a with
  | transport a notified =>
      simp only [step] at hstep
      split at hstep
      · exact absurd hstep (by simp)
      · rename_i ha
        obtain ⟨σ, hσ, hsub⟩ := Option.bind_eq_some_iff.mp hstep
        obtain ⟨s, hs, rfl⟩ := Option.map_eq_some_iff.mp hsub
        obtain ⟨hinv', hlive', htasks⟩ := submit_tasks hinv hlive hs
        obtain ⟨new, hnew⟩ := step_appends (by simpa using ha) hσ
        refine ⟨⟨hinv', hlive', ?_⟩, ?_⟩
        · show σ.mProcessor = (s.view q).serial.tasks
          rw [htasks, ← hmirror, ← hnew, List.drop_left]
        · simp only [acts, exec, Any, if_true, hσ, Option.bind_some]
  | pool a =>
      simp only [step] at hstep
      split at hstep
      · rename_i hother
        obtain ⟨s, hs, rfl⟩ := Option.map_eq_some_iff.mp hstep
        have hone := Threads.step_tasks hinv hs q
        rw [hother.1, hother.2, List.append_nil, List.nil_append] at hone
        exact ⟨⟨hinv.kept hs, hlive.kept hs, hmirror.trans hone⟩, rfl⟩
      · exact absurd hstep (by simp)
  | task i notified answers =>
      simp only [step] at hstep
      split at hstep
      · rename_i t rest hfinished
        obtain ⟨s, hs, rfl⟩ := Option.map_eq_some_iff.mp hstep
        have hone := Threads.step_tasks hinv hs q
        have hrest : rest = [] ∧ Threads.enqueued q h.system (.finish i notified) = [] := by
          unfold Threads.finished Threads.enqueued at *
          cases hlabel : Threads.label q h.system (.finish i notified) with
          | finish task =>
              rw [hlabel] at hfinished
              exact ⟨(List.cons.inj hfinished).2.symm, rfl⟩
          | _ =>
              rw [hlabel] at hfinished
              exact absurd hfinished (by simp [Threads.Label.finished])
        obtain ⟨rfl, hnone⟩ := hrest
        rw [hfinished, hnone, List.append_nil, ← hmirror, List.singleton_append] at hone
        refine ⟨⟨hinv.kept hs, hlive.kept hs, ?_⟩, ?_⟩
        · rw [run_tasks]
          show h.transport.mProcessor.tail = (s.view q).serial.tasks
          rw [hone, List.tail_cons]
        · simp only [acts, exec, Any, if_true, Sctp.step, hone, List.tail_cons, Option.bind_some]
      · exact absurd hstep (by simp)

theorem mirrors_init : Mirrors q Host.init := ⟨Threads.inv_init, Threads.live_init, rfl⟩

theorem Mirrors.run {as : List Act} {h : Host} (hrun : exec (step cfg q) Any .init as = some h) : Mirrors q h :=
  (Path.of_exec hrun).invariant (fun _ _ _ hm _ hstep => (step_refines hm hstep).1) mirrors_init

theorem run_transport {as : List Act} {h : Host} (hrun : exec (step cfg q) Any .init as = some h) :
    exec (Sctp.step cfg) Any .init (collect (step cfg q) acts .init as) = some h.transport :=
  exec_project (f := Host.transport) (fun _ _ _ hm hstep => (step_refines hm hstep).1)
    (fun _ _ _ hm hstep => (step_refines hm hstep).2) mirrors_init hrun

/-- One worker serves a transport that sends a text. -/
def serving : List Act :=
  [.pool (.spawn 1), .pool .processor, .pool (.start 0), .transport .start [],
    .transport (.arrive [Sctp.assocChange 1]) [], .transport (.upcall true false) [none], .pool (.dequeue 0 0),
    .transport (.upcall false true) [none], .task 0 none [], .transport (.send (some (Sctp.text 0 [1])) []) [],
    .pool (.dequeue 0 0), .task 0 none [none], .pool (.wait 0)]

/-- **Refinement.** Every run of the transport on the thread pool is a run of the transport, whose tasks are
    those that the pool has. -/
theorem pooled_refines {as : List Act} {h : Host} (hrun : exec (step cfg q) Any .init as = some h) :
    exec (Sctp.step cfg) Any .init (collect (step cfg q) acts .init as) = some h.transport ∧
      h.transport.mProcessor = (h.system.view q).serial.tasks :=
  ⟨run_transport hrun, (Mirrors.run hrun).tasks⟩

theorem pooled_refines_serving :
    ∃ h, exec (step Sctp.machine 0) Any .init (serving.take 8) = some h ∧
      h.transport.mProcessor = [.doRecv, .doFlush] ∧
      exec (Sctp.step Sctp.machine) Any .init (collect (step Sctp.machine 0) acts .init (serving.take 8)) =
        some h.transport ∧
      h.transport.mProcessor = (h.system.view 0).serial.tasks := by
  have hrun : exec (step Sctp.machine 0) Any .init (serving.take 8) = some _ := rfl
  exact ⟨_, hrun, rfl, pooled_refines hrun⟩

end HxDatachannel.Pooled
