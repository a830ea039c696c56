import HxDatachannel.Base.Slots
import HxDatachannel.Threads.Defs

/-!
# `Threads.Effect` — what a step of the thread pool can do

`Effect` is `step` by its cases: what was met, and the system after it. The lemmas below it say what a worker's
turn and a notification leave alone.
-/

namespace HxDatachannel.Threads

variable {α : Type}

/-- What `mBusyWorkers` counts of a worker. -/
def Worker.isBusy : Worker α → Bool
  | .ready  => true
  | .busy _ => true
  | _       => false

/-- The workers before and after `notify_one`. -/
def Notified (ws ws' : List (Worker α)) : Prop :=
  (ws' = ws ∧ ∀ w ∈ ws, w.isWaiting = false) ∨ ∃ i time, ws[i]? = some (.waiting time) ∧ ws' = ws.set i .woken

/-- The turns of worker `i` in which it neither takes nor ends a function. -/
inductive Turn (p : ThreadPool α) (i : Nat) : Act α → Worker α → Worker α → Int → Prop
  | start : Turn p i (.start i) .spawned .ready 1
  | wait : p.mJoining = false → (∀ time ∈ p.top, p.now < time) →
      Turn p i (.wait i) .ready (.waiting p.top) (-1)
  | wake : Turn p i (.wake i) .woken .ready 1
  | expire {time : Nat} : time ≤ p.now → Turn p i (.wake i) (.waiting (some time)) .ready 1
  | spurious (time : Option Nat) : Turn p i (.wakeSpuriously i) (.waiting time) .ready 1
  | leave : p.mJoining = true → Turn p i (.leave i) .ready .exited (-1)

/-- The pool with a new task. -/
def ThreadPool.put (p : ThreadPool α) (ws : List (Worker α)) (task : Task α) : ThreadPool α :=
  { p with mTasks := p.mTasks ++ [task], mWorkers := ws }

/-- The pool after a turn of worker `i`. -/
def ThreadPool.turn (p : ThreadPool α) (i : Nat) (w : Worker α) (busy : Int) : ThreadPool α :=
  { p with mWorkers := p.mWorkers.set i w, mBusyWorkers := p.mBusyWorkers + busy }

inductive Effect (s : System α) : Act α → System α → Prop
  | tick {now : Nat} : s.pool.now ≤ now → Effect s (.tick now) (s.setPool { s.pool with now })
  | spawn (count : Nat) : Effect s (.spawn count) (s.setPool (s.pool.spawn count))
  | processor : Effect s .processor { s with processors := s.processors ++ [.init] }
  | enqueue {q : Nat} {task : α} {notified : Option Nat} {r : Processor α} :
      s.processors[q]? = some r → r.mPending = true →
      Effect s (.enqueue q task notified)
        { s with processors := s.processors.set q { r with mTasks := r.mTasks ++ [task] } }
  | submit {q : Nat} {task : α} {notified : Option Nat} {r : Processor α} {ws : List (Worker α)} :
      s.processors[q]? = some r → r.mPending = false → Notified s.pool.mWorkers ws →
      Effect s (.enqueue q task notified)
        { pool := s.pool.put ws ⟨s.pool.now, .processor q task⟩,
          processors := s.processors.set q { r with mPending := true } }
  | schedule {time : Nat} {task : α} {notified : Option Nat} {ws : List (Worker α)} :
      Notified s.pool.mWorkers ws →
      Effect s (.schedule time task notified) (s.setPool (s.pool.put ws ⟨time, .other task⟩))
  | turn {a : Act α} {i : Nat} {w w' : Worker α} {busy : Int} :
      s.pool.mWorkers[i]? = some w → Turn s.pool i a w w' busy → Effect s a (s.setPool (s.pool.turn i w' busy))
  | dequeue {i j : Nat} {task : Task α} :
      s.pool.mWorkers[i]? = some .ready → s.pool.mTasks[j]? = some task → s.pool.mJoining = false →
      s.pool.top = some task.time → task.time ≤ s.pool.now →
      Effect s (.dequeue i j)
        (s.setPool { s.pool with
          mWorkers := s.pool.mWorkers.set i (.busy task.func), mTasks := s.pool.mTasks.eraseIdx j })
  | return {i : Nat} {notified : Option Nat} {task : α} :
      s.pool.mWorkers[i]? = some (.busy (.other task)) →
      Effect s (.finish i notified) (s.setPool { s.pool with mWorkers := s.pool.mWorkers.set i .ready })
  | chain {i : Nat} {notified : Option Nat} {q : Nat} {task next : α} {r : Processor α} {tasks : List α}
      {ws : List (Worker α)} :
      s.pool.mWorkers[i]? = some (.busy (.processor q task)) → s.processors[q]? = some r →
      r.mTasks = next :: tasks → Notified (s.pool.mWorkers.set i .ready) ws →
      Effect s (.finish i notified)
        { pool := s.pool.put ws ⟨s.pool.now, .processor q next⟩,
          processors := s.processors.set q { r with mTasks := tasks } }
  | last {i : Nat} {notified : Option Nat} {q : Nat} {task : α} {r : Processor α} :
      s.pool.mWorkers[i]? = some (.busy (.processor q task)) → s.processors[q]? = some r → r.mTasks = [] →
      Effect s (.finish i notified)
        { pool := { s.pool with mWorkers := s.pool.mWorkers.set i .ready },
          processors := s.processors.set q { r with mPending := false } }
  | join : s.pool.mBusyWorkers = 0 → s.pool.mJoining = false →
      Effect s .join (s.setPool { s.pool with
        mJoining := true, mWorkers := s.pool.mWorkers.map Worker.notify })
  | joined : s.pool.mJoining = true → (∀ w ∈ s.pool.mWorkers, w.isExited = true) →
      Effect s .joined (s.setPool { s.pool with mWorkers := [], mJoining := false })
  | clear : Effect s .clear s.clear

theorem notify_one_eq_some {p p' : ThreadPool α} {notified : Option Nat} (h : p.notify_one notified = some p') :
    ∃ ws, Notified p.mWorkers ws ∧ p' = { p with mWorkers := ws } := by
  cases notified with
  | none =>
      simp only [ThreadPool.notify_one] at h
      split at h
      · exact absurd h (by simp)
      · rename_i hany
        obtain rfl := Option.some.inj h
        refine ⟨p.mWorkers, Or.inl ⟨rfl, ?_⟩, rfl⟩
        intro w hw
        by_contra hwaiting
        exact hany (List.any_eq_true.mpr ⟨w, hw, by simpa using hwaiting⟩)
  | some i =>
      simp only [ThreadPool.notify_one] at h
      split at h
      · rename_i time hi
        obtain rfl := Option.some.inj h
        exact ⟨_, Or.inr ⟨i, time, hi, rfl⟩, rfl⟩
      · exact absurd h (by simp)

theorem schedule_eq_some {p p' : ThreadPool α} {time : Nat} {func : Func α} {notified : Option Nat}
    (h : p.schedule time func notified = some p') :
    ∃ ws, Notified p.mWorkers ws ∧ p' = p.put ws ⟨time, func⟩ := by
  obtain ⟨ws, hws, rfl⟩ := notify_one_eq_some h
  exact ⟨ws, hws, rfl⟩

theorem at_eq_some {s t : System α} {q : Nat} {f : Processor α → ThreadPool α → Option (Processor α × ThreadPool α)}
    (h : s.at q f = some t) :
    ∃ r r' p, s.processors[q]? = some r ∧ f r s.pool = some (r', p) ∧
      t = { pool := p, processors := s.processors.set q r' } := by
  unfold System.at at h
  split at h
  · exact absurd h (by simp)
  · rename_i r hr
    obtain ⟨⟨r', p⟩, hf, rfl⟩ := Option.map_eq_some_iff.mp h
    exact ⟨r, r', p, hr, hf, rfl⟩

theorem enqueue_effect {s t : System α} {q : Nat} {task : α} {notified : Option Nat}
    (h : step s (.enqueue q task notified) = some t) : Effect s (.enqueue q task notified) t := by
  simp only [step] at h
  obtain ⟨r, r', p, hr, hf, rfl⟩ := at_eq_some h
  simp only [Processor.enqueue] at hf
  split at hf
  · rename_i hpending
    obtain ⟨rfl, rfl⟩ := Prod.mk.inj (Option.some.inj hf)
    exact Effect.enqueue hr hpending
  · rename_i hpending
    obtain ⟨p', hp', heq⟩ := Option.map_eq_some_iff.mp hf
    obtain ⟨rfl, rfl⟩ := Prod.mk.inj heq
    obtain ⟨ws, hws, rfl⟩ := schedule_eq_some hp'
    exact Effect.submit hr (by simpa using hpending) hws

theorem finish_effect {s t : System α} {i : Nat} {notified : Option Nat}
    (h : step s (.finish i notified) = some t) : Effect s (.finish i notified) t := by
  simp only [step, System.finish] at h
  split at h
  · rename_i func hi
    cases func with
    | other task =>
        obtain rfl := Option.some.inj h
        exact Effect.return hi
    | processor q task =>
        obtain ⟨r, r', p, hr, hf, rfl⟩ := at_eq_some h
        simp only [Processor.schedule] at hf
        split at hf
        · rename_i next tasks htasks
          obtain ⟨p', hp', heq⟩ := Option.map_eq_some_iff.mp hf
          obtain ⟨rfl, rfl⟩ := Prod.mk.inj heq
          obtain ⟨ws, hws, rfl⟩ := schedule_eq_some hp'
          exact Effect.chain hi hr htasks hws
        · rename_i htasks
          obtain ⟨rfl, rfl⟩ := Prod.mk.inj (Option.some.inj hf)
          exact Effect.last hi hr htasks
  · exact absurd h (by simp)

theorem start_effect {s t : System α} {i : Nat} (h : step s (.start i) = some t) : Effect s (.start i) t := by
  obtain ⟨p, hp, rfl⟩ := Option.map_eq_some_iff.mp h
  simp only [ThreadPool.start] at hp
  split at hp
  · rename_i hi
    obtain rfl := Option.some.inj hp
    exact Effect.turn hi Turn.start
  · exact absurd hp (by simp)

theorem wait_effect {s t : System α} {i : Nat} (h : step s (.wait i) = some t) : Effect s (.wait i) t := by
  obtain ⟨p, hp, rfl⟩ := Option.map_eq_some_iff.mp h
  simp only [ThreadPool.wait] at hp
  split at hp
  · rename_i hi
    split at hp
    · rename_i hwait
      obtain rfl := Option.some.inj hp
      exact Effect.turn hi (Turn.wait hwait.1 hwait.2)
    · exact absurd hp (by simp)
  · exact absurd hp (by simp)

theorem wake_effect {s t : System α} {i : Nat} (h : step s (.wake i) = some t) : Effect s (.wake i) t := by
  obtain ⟨p, hp, rfl⟩ := Option.map_eq_some_iff.mp h
  simp only [ThreadPool.wake] at hp
  split at hp
  · rename_i hi
    obtain rfl := Option.some.inj hp
    exact Effect.turn hi Turn.wake
  · rename_i time hi
    split at hp
    · rename_i htime
      obtain rfl := Option.some.inj hp
      exact Effect.turn hi (Turn.expire htime)
    · exact absurd hp (by simp)
  · exact absurd hp (by simp)

theorem wakeSpuriously_effect {s t : System α} {i : Nat} (h : step s (.wakeSpuriously i) = some t) :
    Effect s (.wakeSpuriously i) t := by
  obtain ⟨p, hp, rfl⟩ := Option.map_eq_some_iff.mp h
  simp only [ThreadPool.wakeSpuriously] at hp
  split at hp
  · rename_i time hi
    obtain rfl := Option.some.inj hp
    exact Effect.turn hi (Turn.spurious time)
  · exact absurd hp (by simp)

theorem leave_effect {s t : System α} {i : Nat} (h : step s (.leave i) = some t) : Effect s (.leave i) t := by
  obtain ⟨p, hp, rfl⟩ := Option.map_eq_some_iff.mp h
  simp only [ThreadPool.leave] at hp
  split at hp
  · rename_i hi
    split at hp
    · rename_i hjoining
      obtain rfl := Option.some.inj hp
      exact Effect.turn hi (Turn.leave hjoining)
    · exact absurd hp (by simp)
  · exact absurd hp (by simp)

theorem dequeue_effect {s t : System α} {i j : Nat} (h : step s (.dequeue i j) = some t) :
    Effect s (.dequeue i j) t := by
  obtain ⟨p, hp, rfl⟩ := Option.map_eq_some_iff.mp h
  simp only [ThreadPool.dequeue] at hp
  split at hp
  · rename_i task hi hj
    split at hp
    · rename_i hguard
      obtain rfl := Option.some.inj hp
      exact Effect.dequeue hi hj hguard.1 hguard.2.1 hguard.2.2
    · exact absurd hp (by simp)
  · exact absurd hp (by simp)

/-- **The cases of a step.** -/
theorem step_effect {s t : System α} {a : Act α} (h : step s a = some t) : Effect s a t := by
  cases a with
  | tick now =>
      simp only [step] at h
      split at h
      · rename_i hnow
        obtain rfl := Option.some.inj h
        exact Effect.tick hnow
      · exact absurd h (by simp)
  | spawn count =>
      obtain rfl := Option.some.inj h
      exact Effect.spawn count
  | processor =>
      obtain rfl := Option.some.inj h
      exact Effect.processor
  | enqueue q task notified => exact enqueue_effect h
  | schedule time task notified =>
      obtain ⟨p, hp, rfl⟩ := Option.map_eq_some_iff.mp h
      obtain ⟨ws, hws, rfl⟩ := schedule_eq_some hp
      exact Effect.schedule hws
  | start i => exact start_effect h
  | wait i => exact wait_effect h
  | wake i => exact wake_effect h
  | wakeSpuriously i => exact wakeSpuriously_effect h
  | leave i => exact leave_effect h
  | dequeue i j => exact dequeue_effect h
  | finish i notified => exact finish_effect h
  | join =>
      obtain ⟨p, hp, rfl⟩ := Option.map_eq_some_iff.mp h
      simp only [ThreadPool.join] at hp
      split at hp
      · rename_i hguard
        obtain rfl := Option.some.inj hp
        exact Effect.join hguard.1 hguard.2
      · exact absurd hp (by simp)
  | joined =>
      obtain ⟨p, hp, rfl⟩ := Option.map_eq_some_iff.mp h
      simp only [ThreadPool.joined] at hp
      split at hp
      · rename_i hguard
        obtain rfl := Option.some.inj hp
        exact Effect.joined hguard.1 (List.all_eq_true.mp hguard.2)
      · exact absurd hp (by simp)
  | clear =>
      obtain rfl := Option.some.inj h
      exact Effect.clear

end HxDatachannel.Threads
