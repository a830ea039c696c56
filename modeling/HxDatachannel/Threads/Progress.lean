import HxDatachannel.Threads.Order

/-!
# `Threads.Progress` — no task is left behind

`notify_one` wakes one worker only, and a worker that waits for the first task of the pool sleeps until its time.
That no task is forgotten is `attended`: for every task of the pool some worker is up, or sleeps no longer than
to the time of the task. So when the workers have nothing more to do, no task of a processor is left; and since
every turn of a worker lowers `rank`, they come to that whatever the order of their turns.

## Contents
- **The pool.** `Worker.attends`, `Live`, and that every step keeps it.
- **At rest.** `quiet_joins`: when no worker can take a turn, every processor can be joined.
- **Termination.** `rank`, `workers_finish`.
- **The join of the pool.** `join_begins`.
-/

namespace HxDatachannel.Threads

open Lts

variable {α : Type}

/-! ## The pool -/

/-- The worker comes to a task with this time without being woken for it. -/
def Worker.attends (time : Nat) : Worker α → Bool
  | .waiting (some time') => time' ≤ time
  | .waiting none         => false
  | .exited               => false
  | _                     => true

/-- The worker is neither asleep nor gone. -/
def Worker.isUp (w : Worker α) : Bool := !w.isWaiting && !w.isExited

/-- Some worker comes to this task, or all are gone. -/
def Attended (ws : List (Worker α)) (task : Task α) : Prop :=
  (∃ w ∈ ws, w.attends task.time = true) ∨ ∀ w ∈ ws, w.isExited = true

structure Live (p : ThreadPool α) : Prop where
  busy     : p.mBusyWorkers = p.mWorkers.countP Worker.isBusy
  joining  : p.mJoining = true → ∀ w ∈ p.mWorkers, w.isWaiting = false
  exited   : p.mJoining = false → ∀ w ∈ p.mWorkers, w.isExited = false
  due      : ∀ task ∈ p.mTasks, (∃ q x, task.of q = some x) → task.time ≤ p.now
  attended : ∀ task ∈ p.mTasks, Attended p.mWorkers task

theorem attends_of_up {w : Worker α} (h : w.isUp = true) (time : Nat) : w.attends time = true := by
  cases w with
  | waiting time' => exact absurd h (by simp [Worker.isUp, Worker.isWaiting])
  | exited => exact absurd h (by simp [Worker.isUp, Worker.isExited])
  | _ => rfl

theorem Attended.of_up {ws : List (Worker α)} {w : Worker α} (hw : w ∈ ws) (h : w.isUp = true) (task : Task α) :
    Attended ws task := Or.inl ⟨w, hw, attends_of_up h task.time⟩

/-- Where nobody sleeps everything is attended. -/
theorem Attended.of_awake {ws : List (Worker α)} (h : ∀ w ∈ ws, w.isWaiting = false) (task : Task α) :
    Attended ws task := by
  by_cases hall : ∀ w ∈ ws, w.isExited = true
  · exact Or.inr hall
  · simp only [not_forall] at hall
    obtain ⟨w, hw, hnot⟩ := hall
    exact Attended.of_up hw (by simp [Worker.isUp, h w hw, hnot]) task

/-! ### Notifications -/

theorem Notified.isWaiting {ws ws' : List (Worker α)} (h : Notified ws ws') (hws : ∀ w ∈ ws, w.isWaiting = false) :
    ∀ w ∈ ws', w.isWaiting = false := by
  rcases h with ⟨rfl, _⟩ | ⟨i, time, hi, rfl⟩
  · exact hws
  · exact absurd (hws _ (List.mem_of_getElem? hi)) (by simp [Worker.isWaiting])

theorem Notified.isExited {ws ws' : List (Worker α)} (h : Notified ws ws') (hws : ∀ w ∈ ws, w.isExited = false) :
    ∀ w ∈ ws', w.isExited = false := by
  rcases h with ⟨rfl, _⟩ | ⟨i, time, hi, rfl⟩
  · exact hws
  · intro w hw
    rcases List.mem_or_eq_of_mem_set hw with hw | rfl
    · exact hws w hw
    · rfl

theorem Notified.countP {ws ws' : List (Worker α)} (h : Notified ws ws') :
    ws'.countP Worker.isBusy = ws.countP Worker.isBusy := by
  rcases h with ⟨rfl, _⟩ | ⟨i, time, hi, rfl⟩
  · rfl
  · have := Slots.countP_set hi Worker.isBusy .woken
    simpa [Worker.isBusy] using this

/-- **A notification is not lost.** After it every task is attended that was before, and the new one too. -/
theorem Notified.attended {ws ws' : List (Worker α)} (h : Notified ws ws') (task : Task α) : Attended ws' task := by
  rcases h with ⟨rfl, hws⟩ | ⟨i, time, hi, rfl⟩
  · exact Attended.of_awake hws task
  · exact Attended.of_up (Slots.mem_set hi .woken) rfl task

theorem Live.put {p : ThreadPool α} {ws : List (Worker α)} {task : Task α} (h : Live p)
    (hws : Notified p.mWorkers ws) (hdue : (∃ q x, task.of q = some x) → task.time ≤ p.now) :
    Live (p.put ws task) := by
  refine ⟨?_, ?_, ?_, ?_, ?_⟩
  · show p.mBusyWorkers = ws.countP Worker.isBusy
    rw [hws.countP]
    exact h.busy
  · intro hjoining
    exact hws.isWaiting (h.joining hjoining)
  · intro hjoining
    exact hws.isExited (h.exited hjoining)
  · intro task' htask'
    rcases List.mem_append.mp htask' with htask' | htask'
    · exact h.due task' htask'
    · rw [List.mem_singleton.mp htask']
      exact hdue
  · intro task' _
    exact hws.attended task'

/-! ### Turns -/

theorem Turn.busy_eq {p : ThreadPool α} {i : Nat} {a : Act α} {w w' : Worker α} {busy : Int}
    (h : Turn p i a w w' busy) :
    ((if w'.isBusy then 1 else 0 : Nat) : Int) = (if w.isBusy then 1 else 0 : Nat) + busy := by
  cases h <;> rfl

theorem top_le {p : ThreadPool α} {task : Task α} (h : task ∈ p.mTasks) : ∃ time, p.top = some time ∧ time ≤ task.time := by
  have hmem : task.time ∈ p.mTasks.map Task.time := List.mem_map_of_mem h
  obtain ⟨time, htime⟩ := Option.isSome_iff_exists.mp (List.isSome_min?_of_mem hmem)
  exact ⟨time, htime, (List.min?_eq_some_iff.mp htime).2 _ hmem⟩

theorem Live.turn {p : ThreadPool α} {i : Nat} {a : Act α} {w w' : Worker α} {busy : Int} (h : Live p)
    (hw : p.mWorkers[i]? = some w) (hturn : Turn p i a w w' busy) : Live (p.turn i w' busy) := by
  have hset : ∀ {P : Worker α → Bool} {b : Bool}, (∀ v ∈ p.mWorkers, P v = b) → P w' = b →
      ∀ v ∈ p.mWorkers.set i w', P v = b := by
    intro P b hall hnew v hv
    rcases List.mem_or_eq_of_mem_set hv with hv | rfl
    · exact hall v hv
    · exact hnew
  refine ⟨?_, ?_, ?_, h.due, ?_⟩
  · have hcount := Slots.countP_set hw Worker.isBusy w'
    have hbusy := hturn.busy_eq
    have := h.busy
    show p.mBusyWorkers + busy = ((p.mWorkers.set i w').countP Worker.isBusy : Int)
    omega
  · intro hjoining
    refine hset (h.joining hjoining) ?_
    cases hturn with
    | wait hnot => exact absurd (hnot.symm.trans hjoining) (by simp)
    | _ => rfl
  · intro hjoining
    refine hset (h.exited hjoining) ?_
    cases hturn with
    | leave hyes => exact absurd (hyes.symm.trans hjoining) (by simp)
    | _ => rfl
  · intro task htask
    have hmem : w' ∈ p.mWorkers.set i w' := Slots.mem_set hw w'
    cases hturn with
    | start => exact Attended.of_up hmem rfl task
    | wake => exact Attended.of_up hmem rfl task
    | expire => exact Attended.of_up hmem rfl task
    | spurious => exact Attended.of_up hmem rfl task
    | wait =>
        -- the worker sleeps until the first of the tasks
        obtain ⟨time, htop, hle⟩ := top_le (p := p) htask
        refine Or.inl ⟨_, hmem, ?_⟩
        rw [htop]
        simpa [Worker.attends] using hle
    | leave hjoining => exact Attended.of_awake (hset (h.joining hjoining) rfl) task

/-- A worker that is up is there, whatever it does next. -/
theorem Live.set {p : ThreadPool α} {i : Nat} {w w' : Worker α} {tasks : List (Task α)} (h : Live p)
    (hw : p.mWorkers[i]? = some w) (hbusy : w.isBusy = true) (hbusy' : w'.isBusy = true)
    (htasks : ∀ task ∈ tasks, task ∈ p.mTasks) :
    Live { p with mWorkers := p.mWorkers.set i w', mTasks := tasks } := by
  have hup : w'.isWaiting = false ∧ w'.isExited = false := by
    cases w' <;> first | exact ⟨rfl, rfl⟩ | exact absurd hbusy' (by simp [Worker.isBusy])
  have hset : ∀ {P : Worker α → Bool}, (∀ v ∈ p.mWorkers, P v = false) → P w' = false →
      ∀ v ∈ p.mWorkers.set i w', P v = false := by
    intro P hall hnew v hv
    rcases List.mem_or_eq_of_mem_set hv with hv | rfl
    · exact hall v hv
    · exact hnew
  refine ⟨?_, ?_, ?_, ?_, ?_⟩
  · have hcount := Slots.countP_set hw Worker.isBusy w'
    have := h.busy
    simp only [hbusy, hbusy', if_true] at hcount
    show p.mBusyWorkers = ((p.mWorkers.set i w').countP Worker.isBusy : Int)
    omega
  · intro hjoining
    exact hset (h.joining hjoining) hup.1
  · intro hjoining
    exact hset (h.exited hjoining) hup.2
  · intro task htask
    exact h.due task (htasks task htask)
  · intro task _
    exact Attended.of_up (Slots.mem_set hw w') (by simp [Worker.isUp, hup]) task

/-! ### The join of the pool -/

theorem notify_isWaiting (w : Worker α) : w.notify.isWaiting = false := by
  cases w <;> rfl

theorem notify_isExited (w : Worker α) : w.notify.isExited = w.isExited := by
  cases w <;> rfl

theorem notify_isBusy (w : Worker α) : w.notify.isBusy = w.isBusy := by
  cases w <;> rfl

theorem Live.join {p : ThreadPool α} (h : Live p) :
    Live { p with mJoining := true, mWorkers := p.mWorkers.map Worker.notify } := by
  have hwaiting : ∀ w ∈ p.mWorkers.map Worker.notify, w.isWaiting = false := by
    intro w hw
    obtain ⟨v, _, rfl⟩ := List.mem_map.mp hw
    exact notify_isWaiting v
  refine ⟨?_, fun _ => hwaiting, fun hjoining => absurd hjoining (by simp), h.due, ?_⟩
  · show p.mBusyWorkers = ((p.mWorkers.map Worker.notify).countP Worker.isBusy : Int)
    rw [List.countP_map, show Worker.isBusy ∘ Worker.notify = Worker.isBusy (α := α) from funext notify_isBusy]
    exact h.busy
  · intro task _
    exact Attended.of_awake hwaiting task

theorem Live.joined {p : ThreadPool α} (h : Live p) (hexited : ∀ w ∈ p.mWorkers, w.isExited = true) :
    Live { p with mWorkers := [], mJoining := false } := by
  have hnone : p.mWorkers.countP Worker.isBusy = 0 := by
    rw [List.countP_eq_zero]
    intro w hw
    have := hexited w hw
    cases w <;> simp_all [Worker.isExited, Worker.isBusy]
  refine ⟨?_, ?_, ?_, h.due, ?_⟩
  · have := h.busy
    rw [hnone] at this
    exact this
  · intro _ w hw
    exact absurd hw (by simp)
  · intro _ w hw
    exact absurd hw (by simp)
  · intro task _
    exact Or.inr fun w hw => absurd hw (by simp)

theorem Live.spawn {p : ThreadPool α} (h : Live p) (count : Nat) : Live (p.spawn count) := by
  have hmem : ∀ w ∈ p.mWorkers ++ List.replicate count Worker.spawned, w ∈ p.mWorkers ∨ w = .spawned := by
    intro w hw
    rcases List.mem_append.mp hw with hw | hw
    · exact Or.inl hw
    · exact Or.inr (List.eq_of_mem_replicate hw)
  refine ⟨?_, ?_, ?_, h.due, ?_⟩
  · show p.mBusyWorkers = ((p.mWorkers ++ List.replicate count Worker.spawned).countP Worker.isBusy : Int)
    rw [List.countP_append, List.countP_replicate]
    simpa [Worker.isBusy] using h.busy
  · intro hjoining w hw
    rcases hmem w hw with hw | rfl
    · exact h.joining hjoining w hw
    · rfl
  · intro hjoining w hw
    rcases hmem w hw with hw | rfl
    · exact h.exited hjoining w hw
    · rfl
  · intro task htask
    rcases h.attended task htask with ⟨w, hw, hattends⟩ | hall
    · exact Or.inl ⟨w, List.mem_append_left _ hw, hattends⟩
    · apply Attended.of_awake
      intro w hw
      rcases hmem w hw with hw | rfl
      · have := hall w hw
        cases w <;> first | rfl | exact absurd this (by simp [Worker.isExited])
      · rfl

/-! ### All steps -/

theorem live_init : Live (ThreadPool.init : ThreadPool α) := by
  refine ⟨rfl, ?_, ?_, ?_, ?_⟩ <;> intros <;> simp_all [ThreadPool.init]

/-- What `Live` says of the pool is kept by every step of the system. -/
theorem Live.kept {s t : System α} {a : Act α} (hs : Live s.pool) (h : step s a = some t) : Live t.pool := by
  cases step_effect h with
  | tick hnow =>
      refine ⟨hs.busy, hs.joining, hs.exited, ?_, hs.attended⟩
      intro task htask hof
      exact Nat.le_trans (hs.due task htask hof) hnow
  | spawn count => exact hs.spawn count
  | processor => exact hs
  | enqueue => exact hs
  | submit _ _ hws => exact hs.put hws fun _ => Nat.le_refl _
  | schedule hws =>
      refine hs.put hws ?_
      rintro ⟨q, x, hof⟩
      exact absurd hof (by simp [Task.of, Func.of])
  | turn hw hturn => exact hs.turn hw hturn
  | dequeue hi hj => exact hs.set hi rfl rfl fun task htask => List.mem_of_mem_eraseIdx htask
  | «return» hi => exact hs.set hi rfl rfl fun _ htask => htask
  | @chain i _ _ _ _ _ _ _ hi _ _ hws =>
      have hready : Live { s.pool with mWorkers := s.pool.mWorkers.set i .ready } := hs.set hi rfl rfl fun _ htask => htask
      exact hready.put hws fun _ => Nat.le_refl _
  | last hi => exact hs.set hi rfl rfl fun _ htask => htask
  | join => exact hs.join
  | joined _ hexited => exact hs.joined hexited
  | clear =>
      refine ⟨hs.busy, hs.joining, hs.exited, ?_, ?_⟩
      · intro task htask
        exact absurd htask (by simp [System.clear, ThreadPool.clear])
      · intro task htask
        exact absurd htask (by simp [System.clear, ThreadPool.clear])

theorem Live.exec {s t : System α} {as : List (Act α)} (hs : Live s.pool) (h : exec step Any s as = some t) :
    Live t.pool :=
  (Path.of_exec h).invariant (I := fun s => Live (System.pool s)) (fun _ _ _ hs _ hstep => hs.kept hstep) hs

/-! ## At rest -/

/-- The turns that a worker takes of itself. -/
def Act.isWorker : Act α → Bool
  | .start _ | .dequeue _ _ | .wait _ | .wake _ | .finish _ _ | .leave _ => true
  | _                                                                    => false

def Worked (_ : System α) (a : Act α) : Prop := a.isWorker = true

instance (s : System α) (a : Act α) : Decidable (Worked s a) := inferInstanceAs (Decidable (a.isWorker = true))

/-- No worker can take a turn. -/
def Quiet (s : System α) : Prop := ∀ a, Worked s a → step s a = none

theorem notify_one_enabled (p : ThreadPool α) : ∃ notified p', p.notify_one notified = some p' := by
  by_cases hany : p.mWorkers.any Worker.isWaiting
  · obtain ⟨w, hw, hwaiting⟩ := List.any_eq_true.mp hany
    obtain ⟨i, hi⟩ := List.getElem?_of_mem hw
    cases w with
    | waiting time => exact ⟨some i, _, by simp [ThreadPool.notify_one, hi]; rfl⟩
    | _ => exact absurd hwaiting (by simp [Worker.isWaiting])
  · exact ⟨none, p, by simp [ThreadPool.notify_one, hany]⟩

/-- A function can return. -/
theorem finish_enabled {s : System α} {i : Nat} {func : Func α} (hs : Inv s)
    (hi : s.pool.mWorkers[i]? = some (.busy func)) : ∃ notified t, step s (.finish i notified) = some t := by
  cases func with
  | other task => exact ⟨none, _, by simp only [step, System.finish, hi]; rfl⟩
  | processor q task =>
      cases hr : s.processors[q]? with
      | none =>
          -- a processor that is not made has no task that runs
          have hlen := (hs q).1
          have hmem : task ∈ (s.view q).running :=
            List.mem_filterMap.mpr ⟨_, List.mem_of_getElem? hi, Func.of_self q task⟩
          have hown : (s.view q).own = .init := by simp [System.view, hr]
          have := List.length_pos_of_mem hmem
          rw [hown, if_neg (by simp [Processor.init])] at hlen
          omega
      | some r =>
          cases htasks : r.mTasks with
          | nil => exact ⟨none, _, by simp only [step, System.finish, hi, System.at, hr, Processor.schedule, htasks]; rfl⟩
          | cons next tasks =>
              obtain ⟨notified, p', hp'⟩ := notify_one_enabled
                ({ s.pool with
                  mWorkers := s.pool.mWorkers.set i .ready,
                  mTasks := s.pool.mTasks ++ [⟨s.pool.now, .processor q next⟩] } : ThreadPool α)
              refine ⟨notified, ⟨p', s.processors.set q { r with mTasks := tasks }⟩, ?_⟩
              simp only [step, System.finish, hi, System.at, hr, Processor.schedule, htasks, ThreadPool.enqueue,
                ThreadPool.schedule, hp']
              rfl

/-- A worker that is up can take a turn. -/
theorem ready_enabled {s : System α} {i : Nat} (hi : s.pool.mWorkers[i]? = some .ready) :
    ∃ a t, Worked s a ∧ step s a = some t := by
  cases hjoining : s.pool.mJoining with
  | true =>
      refine ⟨.leave i, s.setPool (s.pool.turn i .exited (-1)), rfl, ?_⟩
      simp only [step, ThreadPool.leave, hi]
      rw [if_pos hjoining]
      rfl
  | false =>
      by_cases hwait : ∀ time ∈ s.pool.top, s.pool.now < time
      · refine ⟨.wait i, s.setPool (s.pool.turn i (.waiting s.pool.top) (-1)), rfl, ?_⟩
        simp only [step, ThreadPool.wait, hi]
        rw [if_pos ⟨hjoining, hwait⟩]
        rfl
      · simp only [not_forall, Nat.not_lt] at hwait
        obtain ⟨time, htop, hle⟩ := hwait
        obtain ⟨task, htask, rfl⟩ := List.mem_map.mp (List.min?_mem htop)
        obtain ⟨j, hj⟩ := List.getElem?_of_mem htask
        refine ⟨.dequeue i j, s.setPool { s.pool with
          mWorkers := s.pool.mWorkers.set i (.busy task.func), mTasks := s.pool.mTasks.eraseIdx j }, rfl, ?_⟩
        simp only [step, ThreadPool.dequeue, hi, hj]
        rw [if_pos ⟨hjoining, htop, hle⟩]
        rfl

/-- At rest every worker sleeps, and not past a time that has come. -/
theorem Quiet.waiting {s : System α} (h : Quiet s) (hs : Inv s) (hlive : Live s.pool)
    (hjoining : s.pool.mJoining = false) {w : Worker α} (hw : w ∈ s.pool.mWorkers) :
    ∃ time, w = .waiting time ∧ ∀ t ∈ time, s.pool.now < t := by
  obtain ⟨i, hi⟩ := List.getElem?_of_mem hw
  have hquiet : ∀ {a t}, Worked s a → step s a = some t → False := by
    intro a t ha hstep
    exact absurd (hstep.symm.trans (h a ha)) (by simp)
  cases w with
  | spawned => exact (hquiet (a := .start i) rfl (by simp only [step, ThreadPool.start, hi]; rfl)).elim
  | ready =>
      obtain ⟨a, t, ha, hstep⟩ := ready_enabled hi
      exact (hquiet ha hstep).elim
  | woken => exact (hquiet (a := .wake i) rfl (by simp only [step, ThreadPool.wake, hi]; rfl)).elim
  | busy func =>
      obtain ⟨notified, t, hstep⟩ := finish_enabled hs hi
      exact (hquiet (a := .finish i notified) rfl hstep).elim
  | exited => exact absurd (hlive.exited hjoining _ hw) (by simp [Worker.isExited])
  | waiting time =>
      refine ⟨time, rfl, ?_⟩
      rintro t rfl
      by_contra hle
      have hle : t ≤ s.pool.now := Nat.le_of_not_lt hle
      exact hquiet (a := .wake i) rfl (by simp only [step, ThreadPool.wake, hi, hle, if_true]; rfl)

theorem quiet_of_waiting {s : System α}
    (h : ∀ w ∈ s.pool.mWorkers, ∃ time, w = .waiting time ∧ ∀ t ∈ time, s.pool.now < t) : Quiet s := by
  intro a ha
  by_contra hne
  obtain ⟨t, hstep⟩ := Option.ne_none_iff_exists'.mp hne
  have hwaiting : ∀ {i : Nat} {w : Worker α}, s.pool.mWorkers[i]? = some w →
      ∃ time, w = .waiting time ∧ ∀ t ∈ time, s.pool.now < t :=
    fun hw => h _ (List.mem_of_getElem? hw)
  cases step_effect hstep with
  | turn hw hturn =>
      obtain ⟨time, rfl, htime⟩ := hwaiting hw
      cases hturn with
      | expire hle => exact absurd (htime _ rfl) (Nat.not_lt_of_le hle)
      | spurious => exact absurd ha (by simp [Worked, Act.isWorker])
  | dequeue hi =>
      obtain ⟨time, heq, _⟩ := hwaiting hi
      exact absurd heq (by simp)
  | «return» hi =>
      obtain ⟨time, heq, _⟩ := hwaiting hi
      exact absurd heq (by simp)
  | chain hi =>
      obtain ⟨time, heq, _⟩ := hwaiting hi
      exact absurd heq (by simp)
  | last hi =>
      obtain ⟨time, heq, _⟩ := hwaiting hi
      exact absurd heq (by simp)
  | _ => exact absurd ha (by simp [Worked, Act.isWorker])

/-- At rest no task of the pool is due. -/
theorem Quiet.not_due {s : System α} (h : Quiet s) (hs : Inv s) (hlive : Live s.pool)
    (hjoining : s.pool.mJoining = false) (hworkers : s.pool.mWorkers ≠ []) {task : Task α} (htask : task ∈ s.pool.mTasks) :
    s.pool.now < task.time := by
  rcases hlive.attended task htask with ⟨w, hw, hattends⟩ | hall
  · obtain ⟨time, rfl, htime⟩ := h.waiting hs hlive hjoining hw
    cases time with
    | none => exact absurd hattends (by simp [Worker.attends])
    | some t =>
        have hle : t ≤ task.time := by simpa [Worker.attends] using hattends
        exact Nat.lt_of_lt_of_le (htime t rfl) hle
  · obtain ⟨w, hw⟩ := List.exists_mem_of_ne_nil _ hworkers
    obtain ⟨time, rfl, _⟩ := h.waiting hs hlive hjoining hw
    exact absurd (hall _ hw) (by simp [Worker.isExited])

/-- At rest a processor has nothing left, unless its task was lost. -/
theorem Quiet.joins {s : System α} (h : Quiet s) (hs : Inv s) (hlive : Live s.pool)
    (hjoining : s.pool.mJoining = false) (hworkers : s.pool.mWorkers ≠ []) {q : Nat}
    (hlost : (s.view q).own.lost = []) : (s.view q).own.joins = true := by
  have hrunning : (s.view q).running = [] := by
    rw [System.view, List.filterMap_eq_nil_iff]
    intro w hw
    obtain ⟨time, rfl, _⟩ := h.waiting hs hlive hjoining hw
    rfl
  have hpool : (s.view q).inPool = [] := by
    rw [System.view, List.filterMap_eq_nil_iff]
    intro task htask
    by_contra hof
    obtain ⟨x, hx⟩ := Option.ne_none_iff_exists'.mp hof
    have hlt := h.not_due hs hlive hjoining hworkers htask
    have hle := hlive.due task htask ⟨q, x, hx⟩
    omega
  obtain ⟨hlen, hrest⟩ := hs q
  have hpending : (s.view q).own.mPending = false := by
    by_contra hpending
    rw [hrunning, hpool, hlost, if_pos (by simpa using hpending)] at hlen
    exact absurd hlen (by simp)
  simp [Processor.joins, hpending, hrest hpending]

/-! ## Termination -/

/-- The turns that a worker has before it sleeps, but for the functions that it takes. -/
def Worker.rank (now : Nat) : Worker α → Nat
  | .spawned             => 2
  | .ready               => 1
  | .waiting none        => 0
  | .waiting (some time) => if time ≤ now then 2 else 0
  | .woken               => 2
  | .busy _              => 2
  | .exited              => 0

/-- A bound on the turns of the workers, where nothing new is enqueued and no time passes. -/
def rank (s : System α) : Nat :=
  Slots.total (Worker.rank s.pool.now) s.pool.mWorkers + 2 * s.pool.mTasks.length +
    4 * Slots.total (fun r => r.mTasks.length) s.processors

theorem Notified.rank {ws ws' : List (Worker α)} (h : Notified ws ws') (now : Nat) :
    Slots.total (Worker.rank now) ws' ≤ Slots.total (Worker.rank now) ws + 2 := by
  rcases h with ⟨rfl, _⟩ | ⟨i, time, hi, rfl⟩
  · omega
  · have := Slots.total_set hi (Worker.rank now) .woken
    have : Worker.rank now (.woken : Worker α) = 2 := rfl
    omega

theorem Turn.rank_lt {p : ThreadPool α} {i : Nat} {a : Act α} {w w' : Worker α} {busy : Int}
    (h : Turn p i a w w' busy) (ha : a.isWorker = true) : w'.rank p.now < w.rank p.now := by
  cases h with
  | start => exact Nat.lt_succ_self 1
  | wait _ hwait =>
      show Worker.rank p.now (.waiting p.top) < 1
      cases htop : p.top with
      | none => exact Nat.one_pos
      | some time =>
          have hlt := hwait time htop
          show (if time ≤ p.now then 2 else 0) < 1
          rw [if_neg (by omega)]
          exact Nat.one_pos
  | wake => exact Nat.lt_succ_self 1
  | @expire time hle =>
      show 1 < if time ≤ p.now then 2 else 0
      rw [if_pos hle]
      exact Nat.lt_succ_self 1
  | spurious => exact absurd ha (by simp [Act.isWorker])
  | leave => exact Nat.one_pos

theorem length_eraseIdx_lt {tasks : List (Task α)} {j : Nat} {task : Task α} (h : tasks[j]? = some task) :
    (tasks.eraseIdx j).length + 1 = tasks.length := by
  have hlt := (List.getElem?_eq_some_iff.mp h).1
  rw [List.length_eraseIdx_of_lt hlt]
  omega

/-- **Every turn of a worker lowers the rank.** -/
theorem rank_lt {s t : System α} {a : Act α} (ha : Worked s a) (h : step s a = some t) : rank t < rank s := by
  cases step_effect h with
  | @turn _ i w w' busy hw hturn =>
      have hlt := hturn.rank_lt ha
      have htotal := Slots.total_set hw (Worker.rank s.pool.now) w'
      simp only [rank, System.setPool, ThreadPool.turn]
      omega
  | @dequeue i j task hi hj =>
      have hlen := length_eraseIdx_lt hj
      have htotal := Slots.total_set hi (Worker.rank s.pool.now) (.busy task.func)
      simp only [rank, System.setPool]
      have hready : Worker.rank s.pool.now (.ready : Worker α) = 1 := rfl
      have hbusy : Worker.rank s.pool.now (.busy task.func) = 2 := rfl
      omega
  | @«return» i notified task hi =>
      have htotal := Slots.total_set hi (Worker.rank s.pool.now) .ready
      simp only [rank, System.setPool]
      have hready : Worker.rank s.pool.now (.ready : Worker α) = 1 := rfl
      have hbusy : Worker.rank s.pool.now (.busy (.other task)) = 2 := rfl
      omega
  | @chain i notified q task next r tasks ws hi hr htasks hws =>
      have htotal := Slots.total_set hi (Worker.rank s.pool.now) .ready
      have hnotified := hws.rank s.pool.now
      have hown := Slots.total_set hr (fun r => r.mTasks.length) { r with mTasks := tasks }
      have hready : Worker.rank s.pool.now (.ready : Worker α) = 1 := rfl
      have hbusy : Worker.rank s.pool.now (.busy (.processor q task)) = 2 := rfl
      simp only [rank, ThreadPool.put, List.length_append, List.length_singleton]
      simp only [htasks, List.length_cons] at hown
      omega
  | @last i notified q task r hi hr htasks =>
      have htotal := Slots.total_set hi (Worker.rank s.pool.now) .ready
      have hown := Slots.total_set hr (fun r => r.mTasks.length) { r with mPending := false }
      have hready : Worker.rank s.pool.now (.ready : Worker α) = 1 := rfl
      have hbusy : Worker.rank s.pool.now (.busy (.processor q task)) = 2 := rfl
      simp only [rank]
      simp only at hown
      omega
  | _ => exact absurd ha (by simp [Worked, Act.isWorker])

/-- What the workers cannot change of the system. -/
theorem worker_frame {s t : System α} {a : Act α} (ha : Worked s a) (h : step s a = some t) :
    t.pool.mJoining = s.pool.mJoining ∧ t.pool.mWorkers.length = s.pool.mWorkers.length ∧
      ∀ q, (t.view q).own.lost = (s.view q).own.lost := by
  have hown : ∀ {q : Nat} {r r' : Processor α}, s.processors[q]? = some r → r'.lost = r.lost →
      ∀ q', ((s.processors.set q r')[q']?.getD .init).lost = (s.view q').own.lost := by
    intro q r r' hr hlost q'
    rw [own_set hr]
    split
    · rename_i heq
      subst heq
      rw [hlost, own_of_some hr]
    · rfl
  have hnotified : ∀ {ws ws' : List (Worker α)}, Notified ws ws' → ws'.length = ws.length := by
    rintro ws ws' (⟨rfl, _⟩ | ⟨i, time, _, rfl⟩)
    · rfl
    · exact List.length_set
  cases step_effect h with
  | turn => exact ⟨rfl, List.length_set, fun _ => rfl⟩
  | dequeue => exact ⟨rfl, List.length_set, fun _ => rfl⟩
  | «return» => exact ⟨rfl, List.length_set, fun _ => rfl⟩
  | chain hi hr htasks hws => exact ⟨rfl, (hnotified hws).trans List.length_set, hown hr rfl⟩
  | last hi hr htasks => exact ⟨rfl, List.length_set, hown hr rfl⟩
  | _ => exact absurd ha (by simp [Worked, Act.isWorker])

/-- A pool at work: some worker is there, and nothing was lost. -/
structure Working (s : System α) : Prop where
  inv     : Inv s
  live    : Live s.pool
  joining : s.pool.mJoining = false
  workers : s.pool.mWorkers ≠ []
  lost    : ∀ q, (s.view q).own.lost = []

theorem Working.kept {s t : System α} {a : Act α} (hs : Working s) (ha : Worked s a) (h : step s a = some t) :
    Working t := by
  obtain ⟨hjoining, hlen, hlost⟩ := worker_frame ha h
  refine ⟨hs.inv.kept h, hs.live.kept h, hjoining.trans hs.joining, ?_, ?_⟩
  · intro hnil
    rw [hnil] at hlen
    exact hs.workers (List.eq_nil_of_length_eq_zero hlen.symm)
  · intro q
    rw [hlost q]
    exact hs.lost q

/-- **Nothing is left behind.** Where the workers have nothing more to do, no task of the pool is due and every
    processor can be joined. -/
theorem quiet_joins {as : List (Act α)} {s : System α} (h : exec step Any .init as = some s)
    (hjoining : s.pool.mJoining = false) (hworkers : s.pool.mWorkers ≠ []) (hquiet : Quiet s) :
    (∀ task ∈ s.pool.mTasks, s.pool.now < task.time) ∧
      ∀ q, (s.view q).own.lost = [] → (s.view q).own.joins = true := by
  have hinv := inv_init.exec h
  have hlive := live_init.exec h
  refine ⟨?_, ?_⟩
  · intro task htask
    exact hquiet.not_due hinv hlive hjoining hworkers htask
  · intro q hlost
    exact hquiet.joins hinv hlive hjoining hworkers hlost

/-- Two workers, of which one sleeps until a timer while the other works. -/
def timer : List (Act Nat) :=
  [.spawn 2, .processor, .start 0, .start 1, .wait 0, .schedule 5 1 (some 0), .wake 0, .wait 0, .wait 1,
    .enqueue 0 7 (some 1), .wake 1, .dequeue 1 1, .enqueue 0 8 none]

def rested : System Nat :=
  { pool := { now := 0, mWorkers := [.waiting (some 5), .waiting (some 5)], mBusyWorkers := 0, mJoining := false,
              mTasks := [{ time := 5, func := .other 1 }] },
    processors := [.init] }

theorem quiet_rested : Quiet rested := by
  apply quiet_of_waiting
  intro w hw
  refine ⟨some 5, ?_, ?_⟩
  · simpa [rested] using hw
  · rintro t ⟨⟩
    decide

theorem quiet_joins_rested :
    (∀ task ∈ rested.pool.mTasks, rested.pool.now < task.time) ∧
      ∀ q, (rested.view q).own.lost = [] → (rested.view q).own.joins = true :=
  have h : exec step Any .init
      (timer ++ [.finish 1 (some 0), .dequeue 1 1, .finish 1 none, .wake 0, .wait 0, .wait 1]) = some rested := rfl
  quiet_joins h rfl (by decide) quiet_rested

/-- **The workers finish.** Whatever turns they have taken, in whatever order, there are no more of them than the
    rank says, and they can be continued until every processor can be joined. -/
theorem workers_finish {as bs : List (Act α)} {s t : System α} (h : exec step Any .init as = some s)
    (hjoining : s.pool.mJoining = false) (hworkers : s.pool.mWorkers ≠ [])
    (hlost : ∀ q, (s.view q).own.lost = []) (h' : exec step Worked s bs = some t) :
    bs.length ≤ rank s ∧
      ∃ cs u, exec step Worked t cs = some u ∧ ∀ q, (u.view q).own.joins = true := by
  have hs : Working s := ⟨inv_init.exec h, live_init.exec h, hjoining, hworkers, hlost⟩
  have hstep : ∀ (s : System α) (a : Act α) (t : System α), Working s → Worked s a → step s a = some t →
      Working t ∧ rank t < rank s := by
    intro s a t hs ha hstep
    exact ⟨hs.kept ha hstep, rank_lt ha hstep⟩
  have ht : Working t :=
    (Path.of_exec h').invariant (fun s a t hs ha hstep' => (hstep s a t hs ha hstep').1) hs
  refine ⟨?_, ?_⟩
  · have := exec_bounded hstep hs h'
    omega
  · obtain ⟨cs, u, hcs, hu, hquiet⟩ := exec_exhaust hstep ht
    exact ⟨cs, u, hcs, fun q => Quiet.joins hquiet hu.inv hu.live hu.joining hu.workers (hu.lost q)⟩

theorem workers_finish_timer :
    ∃ s t, exec step Any .init timer = some s ∧ rank s = 8 ∧
      exec step Worked s [Act.finish 1 (some 0), .dequeue 1 1] = some t ∧
      2 ≤ rank s ∧ ∃ cs u, exec step Worked t cs = some u ∧ ∀ q, (u.view q).own.joins = true := by
  refine ⟨_, _, rfl, rfl, rfl,
    @workers_finish _ timer [.finish 1 (some 0), .dequeue 1 1] _ _ rfl rfl (by decide) ?_ rfl⟩
  intro q
  cases q <;> rfl

/-! ## What the join of the pool leaves -/

/-- No worker is spawned and no task is cleared. -/
def Unspawned (_ : System α) : Act α → Prop
  | .spawn _ => False
  | .clear   => False
  | _        => True

instance (s : System α) (a : Act α) : Decidable (Unspawned s a) := by
  cases a <;> unfold Unspawned <;> infer_instance

/-- Between the begin of a join and the next `spawn`. -/
def Stranded (p : ThreadPool α) : Prop := p.mJoining = true ∨ p.mWorkers = []

theorem Stranded.kept {s t : System α} {a : Act α} (hs : Stranded s.pool) (ha : Unspawned s a)
    (h : step s a = some t) : Stranded t.pool ∧ (∀ i j, a ≠ .dequeue i j) ∧ s.pool.mTasks <+: t.pool.mTasks := by
  have hnobody : ∀ {i : Nat} {w : Worker α}, s.pool.mWorkers[i]? = some w → s.pool.mJoining = true := by
    intro i w hw
    rcases hs with hjoining | hnil
    · exact hjoining
    · rw [hnil] at hw
      exact absurd hw (by simp)
  have hnotified : ∀ {ws : List (Worker α)}, Notified s.pool.mWorkers ws → s.pool.mJoining = true ∨ ws = [] := by
    rintro ws (⟨rfl, _⟩ | ⟨i, time, hi, rfl⟩)
    · exact hs
    · exact Or.inl (hnobody hi)
  cases step_effect h with
  | tick => exact ⟨hs, by simp, List.prefix_rfl⟩
  | spawn => exact ha.elim
  | processor => exact ⟨hs, by simp, List.prefix_rfl⟩
  | enqueue => exact ⟨hs, by simp, List.prefix_rfl⟩
  | submit _ _ hws => exact ⟨hnotified hws, by simp, List.prefix_append _ _⟩
  | schedule hws => exact ⟨hnotified hws, by simp, List.prefix_append _ _⟩
  | turn hw hturn =>
      refine ⟨Or.inl (hnobody hw), ?_, List.prefix_rfl⟩
      cases hturn <;> simp
  | dequeue hi _ hjoining => exact absurd (hjoining.symm.trans (hnobody hi)) (by simp)
  | «return» hi => exact ⟨Or.inl (hnobody hi), by simp, List.prefix_rfl⟩
  | chain hi _ _ _ => exact ⟨Or.inl (hnobody hi), by simp, List.prefix_append _ _⟩
  | last hi => exact ⟨Or.inl (hnobody hi), by simp, List.prefix_rfl⟩
  | join => exact ⟨Or.inl rfl, by simp, List.prefix_rfl⟩
  | joined => exact ⟨Or.inr rfl, by simp, List.prefix_rfl⟩
  | clear => exact ha.elim

theorem Stranded.exec {s t : System α} {bs : List (Act α)} (hs : Stranded s.pool)
    (h : exec step Unspawned s bs = some t) :
    (∀ i j, Act.dequeue i j ∉ bs) ∧ s.pool.mTasks <+: t.pool.mTasks := by
  induction bs generalizing s with
  | nil =>
      simp only [Lts.exec, Option.some.injEq] at h
      exact ⟨by simp, h ▸ List.prefix_rfl⟩
  | cons b bs ih =>
      simp only [Lts.exec] at h
      split at h
      · rename_i hb
        obtain ⟨u, hu, hrest⟩ := Option.bind_eq_some_iff.mp h
        obtain ⟨hstranded, hdequeue, hprefix⟩ := hs.kept hb hu
        obtain ⟨hnone, hprefix'⟩ := ih hstranded hrest
        refine ⟨?_, hprefix.trans hprefix'⟩
        intro i j hmem
        rcases List.mem_cons.mp hmem with heq | hmem
        · exact hdequeue i j heq.symm
        · exact hnone i j hmem
      · exact absurd h (by simp)

/-- **`ThreadPool::join` waits for no task that has not begun.** It begins when no worker runs anything; and from
    then on nothing is taken from the pool, not even what was due, until workers are spawned again. -/
theorem join_strands {as bs : List (Act α)} {s t : System α} (h : exec step Any .init as = some s)
    (h' : exec step Unspawned s (.join :: bs) = some t) :
    (∀ w ∈ s.pool.mWorkers, w.isBusy = false) ∧ (∀ i j, Act.dequeue i j ∉ bs) ∧
      s.pool.mTasks <+: t.pool.mTasks := by
  simp only [exec] at h'
  rw [if_pos (by trivial)] at h'
  obtain ⟨u, hu, hrest⟩ := Option.bind_eq_some_iff.mp h'
  cases step_effect hu with
  | turn _ hturn => cases hturn
  | join hbusy hjoining =>
      obtain ⟨hnone, hprefix⟩ := Stranded.exec (Or.inl rfl) hrest
      refine ⟨?_, hnone, hprefix⟩
      intro w hw
      have hcount := (live_init.exec h).busy
      rw [hbusy] at hcount
      have hzero : s.pool.mWorkers.countP Worker.isBusy = 0 := by omega
      simpa using List.countP_eq_zero.mp hzero w hw

/-- A worker that has been woken for a task is not counted before it has the lock. -/
theorem join_strands_timer :
    ∃ s t, exec step Any .init (timer.take 10) = some s ∧ s.pool.mTasks.map Task.time = [5, 0] ∧
      exec step Unspawned s [Act.join, .wake 1, .leave 1, .wake 0, .leave 0, .joined] = some t ∧
      (∀ w ∈ s.pool.mWorkers, w.isBusy = false) ∧
      (∀ i j, Act.dequeue i j ∉ [Act.wake 1, .leave 1, .wake 0, .leave 0, (.joined : Act Nat)]) ∧
      s.pool.mTasks <+: t.pool.mTasks :=
  ⟨_, _, rfl, rfl, rfl, @join_strands _ (timer.take 10) _ _ _ rfl rfl⟩

end HxDatachannel.Threads
