import HxDatachannel.EventLoop.Effect

/-!
# `EventLoop.Objects` — the synchronisation objects exist when they are used

`initialize` and `finalize` check for NULL, the ten callbacks and `process_events` do not. Whether an
operation meets a live object is therefore a question of the order of calls: `Bracketed` is the discipline
under which it always does (`bracketed_no_fault`), and a single callback after `RTC.finalize` shows that
the binding does not enforce it (`callback_after_finalize`).
-/

namespace HxDatachannel
namespace EventLoop

open Lts

/-- No thread is about to use a synchronisation object: every call in progress is inside a handler. -/
def State.AllIdle (s : State) : Prop := ∀ stack ∈ s.threads, ∀ f ∈ stack, f.uses = false

/-- **The discipline.** Callbacks and `processEvents` start, and a handler goes back into the loop, only
    while the module is initialised; `RTC.finalize` runs only when no callback is in progress and no
    `processEvents` is outside a handler. -/
def Bracketed (s : State) : Label → Prop
  | .step _ (.fire _)  => s.globals.inited
  | .step _ .call      => s.globals.inited
  | .step _ .ret       => s.globals.inited
  | .step _ .finalize  => s.AllIdle
  | _                  => True

instance (s : State) : Decidable s.AllIdle :=
  inferInstanceAs (Decidable (∀ stack ∈ s.threads, ∀ f ∈ stack, f.uses = false))

instance (s : State) (l : Label) : Decidable (Bracketed s l) :=
  match l with
  | .spawn => inferInstanceAs (Decidable True)
  | .step _ (.fire _)  => inferInstanceAs (Decidable (s.globals.inited = true))
  | .step _ .call      => inferInstanceAs (Decidable (s.globals.inited = true))
  | .step _ .ret       => inferInstanceAs (Decidable (s.globals.inited = true))
  | .step _ .finalize  => inferInstanceAs (Decidable s.AllIdle)
  | .step _ .init | .step _ .create | .step _ .acquire | .step _ .obtain | .step _ .unlock
  | .step _ .release | .step _ .tryAcquire | .step _ .dispatch | .step _ .throw =>
      inferInstanceAs (Decidable True)

/-- The objects are there while the module is initialised, nobody uses them while it is not, and who waits
    for a mutex waits for the current one. -/
structure Sound (s : State) : Prop where
  fault : s.globals.fault = false
  objects : s.globals.inited →
    s.globals.callback_result_mutex ≠ none ∧ s.globals.callback_result_semaphore ≠ none
  idle : s.globals.inited = false → s.AllIdle
  waiting : ∀ stack ∈ s.threads, ∀ f ∈ stack, ∀ sec i, f = .locking sec (.waiting i) →
    ∃ m, s.globals.callback_result_mutex = some m ∧ m.id = i

theorem sound_blank : Sound .blank :=
  ⟨rfl, by simp [State.blank, Globals.blank], by simp [State.AllIdle, State.blank],
    by simp [State.blank]⟩

/-! ## What a step of one thread needs and keeps -/

/-- The part of `Sound` about one stack. -/
structure StackSound (g : Globals) (stack : List Frame) : Prop where
  idle : g.inited = false → ∀ f ∈ stack, f.uses = false
  waiting : ∀ f ∈ stack, ∀ sec i, f = .locking sec (.waiting i) →
    ∃ m, g.callback_result_mutex = some m ∧ m.id = i

/-- A frame that uses an object runs while the module is initialised. -/
theorem StackSound.inited {g : Globals} {f : Frame} {rest : List Frame}
    (h : StackSound g (f :: rest)) (hu : f.uses = true) : g.inited = true := by
  cases hi : g.inited with
  | true => rfl
  | false => exact absurd hu (by simp [h.idle hi f (by simp)])

theorem StackSound.rest {g : Globals} {f : Frame} {rest : List Frame}
    (h : StackSound g (f :: rest)) : StackSound g rest :=
  ⟨fun hi f' hf' => h.idle hi f' (List.mem_cons_of_mem _ hf'),
    fun f' hf' => h.waiting f' (List.mem_cons_of_mem _ hf')⟩

/-- A new frame on top: one that is not waiting for a mutex, and uses objects only while initialised. -/
theorem StackSound.cons {g : Globals} {f : Frame} {rest : List Frame} (h : StackSound g rest)
    (hu : g.inited = true ∨ f.uses = false) (hw : ∀ sec i, f ≠ .locking sec (.waiting i)) :
    StackSound g (f :: rest) := by
  constructor
  · intro hi f' hf'
    rcases List.mem_cons.mp hf' with rfl | hf'
    · rcases hu with hu | hu
      · rw [hi] at hu; exact absurd hu (by simp)
      · exact hu
    · exact h.idle hi f' hf'
  · intro f' hf' sec i he
    rcases List.mem_cons.mp hf' with rfl | hf'
    · exact absurd he (hw sec i)
    · exact h.waiting f' hf' sec i he

/-- The frames a critical section goes on with never wait for a mutex. -/
theorem run_not_waiting (g : Globals) (s : Section) :
    ∀ f ∈ (s.run g).2, ∀ sec i, f ≠ .locking sec (.waiting i) := by
  cases s with
  | append p => cases p <;> simp [Section.run]
  | popAnnouncement => simp only [Section.run]; split <;> simp
  | popResult => simp only [Section.run]; split <;> simp

/-- The objects are there if the module is initialised. -/
def Globals.Ready (g : Globals) : Prop :=
  g.inited → g.callback_result_mutex ≠ none ∧ g.callback_result_semaphore ≠ none

/-- The module stays initialised and the mutex object stays the same. -/
structure Keeps (g g' : Globals) : Prop where
  inited : g'.inited = false → g.inited = false
  mutex : ∀ m, g.callback_result_mutex = some m →
    ∃ m', g'.callback_result_mutex = some m' ∧ m'.id = m.id

/-- A step that touches neither the flag nor the mutex. -/
theorem Keeps.of_eq {g g' : Globals} (hi : g'.inited = g.inited)
    (hm : g'.callback_result_mutex = g.callback_result_mutex) : Keeps g g' :=
  ⟨fun h => hi ▸ h, fun m h => ⟨m, hm.trans h, rfl⟩⟩

theorem Keeps.refl (g : Globals) : Keeps g g := .of_eq rfl rfl

/-- What other threads rely on survives a step that keeps the objects. -/
theorem StackSound.keep {g g' : Globals} {stack : List Frame} (h : StackSound g stack)
    (hk : Keeps g g') : StackSound g' stack := by
  refine ⟨fun hi => h.idle (hk.inited hi), ?_⟩
  intro f hf sec i he
  obtain ⟨m, hm, hid⟩ := h.waiting f hf sec i he
  obtain ⟨m', hm', hid'⟩ := hk.mutex m hm
  exact ⟨m', hm', hid'.trans hid⟩

/-- An idle stack relies on nothing. -/
theorem StackSound.of_idle (g : Globals) {stack : List Frame} (h : ∀ f ∈ stack, f.uses = false) :
    StackSound g stack := by
  refine ⟨fun _ => h, ?_⟩
  intro f hf sec i he
  have := h f hf
  rw [he] at this
  exact absurd this (by simp [Frame.uses])

theorem init_ready (g : Globals) (h : g.Ready) : g.init.Ready := by
  unfold Globals.init
  split
  · intro _
    simp only [ Globals.initialize]
    constructor <;> split <;> simp
  · exact h

theorem init_keeps (g : Globals) : Keeps g g.init := by
  unfold Globals.init
  split
  · refine ⟨by simp, fun m hm => ⟨m, ?_, rfl⟩⟩
    simp only [ Globals.initialize, hm]
  · exact Keeps.refl g

theorem init_fault (g : Globals) : g.init.fault = g.fault := by
  unfold Globals.init; split <;> rfl

theorem create_eq (g : Globals) : g.create.inited = g.inited ∧ g.create.fault = g.fault ∧
    g.create.callback_result_mutex = g.callback_result_mutex ∧
    g.create.callback_result_semaphore = g.callback_result_semaphore := by
  unfold Globals.create; split <;> exact ⟨rfl, rfl, rfl, rfl⟩

theorem fini_fault (g : Globals) : g.fini.fault = g.fault := by
  unfold Globals.fini; split <;> rfl

theorem fini_inited (g : Globals) : g.fini.inited = false := by
  unfold Globals.fini
  split
  · rfl
  · rename_i h; simpa using h

theorem id_eq_of_mutex {g : Globals} {m m' : Mutex} (h : g.callback_result_mutex = some m)
    (h' : g.callback_result_mutex = some m') : m.id = m'.id := by
  rw [h] at h'
  rw [Option.some.inj h']

/-- The discipline, for a step of one thread. -/
def Act.Bracketed (g : Globals) : Act → Prop
  | .fire _ => g.inited
  | .call   => g.inited
  | .ret    => g.inited
  | _       => True

/-- **Step lemma for one thread.** A disciplined step other than `finalize` meets only live objects. -/
theorem Effect.sound {g g' : Globals} {stack stack' : List Frame} {a : Act}
    (h : Effect g stack a g' stack') (ha : a.Bracketed g) (hfin : a ≠ .finalize)
    (hf : g.fault = false) (hr : g.Ready) (hs : StackSound g stack) :
    g'.fault = false ∧ g'.Ready ∧ StackSound g' stack' ∧ Keeps g g' := by
  cases h with
  | init =>
      exact ⟨by rwa [init_fault], init_ready g hr, hs.keep (init_keeps g), init_keeps g⟩
  | finalize => exact absurd rfl hfin
  | create =>
      obtain ⟨hi, hfa, hm, hsem⟩ := create_eq g
      have hk : Keeps g g.create := .of_eq hi hm
      exact ⟨by rwa [hfa], by unfold Globals.Ready; rw [hi, hm, hsem]; exact hr, hs.keep hk, hk⟩
  | fire => exact ⟨hf, hr, hs.cons (.inl ha) (by simp), Keeps.refl g⟩
  | drop => exact ⟨hf, hr, hs, Keeps.refl g⟩
  | call => exact ⟨hf, hr, hs.cons (.inl ha) (by simp), Keeps.refl g⟩
  | @acquire sec rest m hm =>
      have hi := hs.inited rfl
      refine ⟨hf, hr, ⟨fun h => absurd h (by simp [hi]), ?_⟩, Keeps.refl g⟩
      intro f hf' sec' i he
      rcases List.mem_cons.mp hf' with rfl | hf'
      · obtain ⟨-, hw⟩ := Frame.locking.inj he
        exact ⟨m, hm, LockStage.waiting.inj hw⟩
      · exact hs.rest.waiting f hf' sec' i he
  | @obtain sec rest m hm hheld =>
      have hk : Keeps g { g with callback_result_mutex := some { m with held := true } } :=
        ⟨id, fun m' hm' => ⟨{ m with held := true }, rfl, show m.id = m'.id from id_eq_of_mutex hm hm'⟩⟩
      have hi := hs.inited rfl
      exact ⟨hf, fun h => ⟨by simp, (hr h).2⟩, (hs.rest.keep hk).cons (.inl hi) (by simp), hk⟩
  | @unlock sec rest m hm =>
      have hk : Keeps g { (sec.run g).1 with callback_result_mutex := some { m with held := false } } :=
        ⟨fun h => by simpa using h,
          fun m' hm' => ⟨{ m with held := false }, rfl, show m.id = m'.id from id_eq_of_mutex hm hm'⟩⟩
      have hi := hs.inited rfl
      refine ⟨by simpa using hf, fun _ => ⟨by simp, by simpa using (hr hi).2⟩, ?_, hk⟩
      have hrest := hs.rest.keep hk
      refine ⟨fun h => absurd h (by simp [hi]), ?_⟩
      intro f hf' sec' i he
      rcases List.mem_append.mp hf' with hf' | hf'
      · exact absurd he (run_not_waiting g sec f hf' sec' i)
      · exact hrest.waiting f hf' sec' i he
  | @release rest n hsem =>
      have hk : Keeps g { g with callback_result_semaphore := some (n + 1) } := .of_eq rfl rfl
      exact ⟨hf, fun h => ⟨(hr h).1, by simp⟩, hs.rest.keep hk, hk⟩
  | exhausted => exact ⟨hf, hr, hs.rest, Keeps.refl g⟩
  | @token rest n hsem =>
      have hk : Keeps g { g with callback_result_semaphore := some n } := .of_eq rfl rfl
      have hi := hs.inited rfl
      exact ⟨hf, fun h => ⟨(hr h).1, by simp⟩, (hs.rest.keep hk).cons (.inl hi) (by simp), hk⟩
  | @dispatch r rest =>
      have hk : Keeps g { g with dispatched := g.dispatched ++ [r] } := .of_eq rfl rfl
      exact ⟨hf, hr, (hs.rest.keep hk).cons (.inr rfl) (by simp), hk⟩
  | retAnnouncing => exact ⟨hf, hr, hs.rest.cons (.inl ha) (by simp), Keeps.refl g⟩
  | retHandling => exact ⟨hf, hr, hs.rest.cons (.inl ha) (by simp), Keeps.refl g⟩
  | throw => exact ⟨hf, hr, hs.rest, Keeps.refl g⟩
  | @fault f rest a _ huses hmiss =>
      -- a frame that uses an object runs while the module is initialised, so the object is there
      have hi := hs.inited huses
      rcases hmiss with hm | hm | ⟨sec, i, m, rfl, hm, hne⟩
      · exact absurd hm (hr hi).1
      · exact absurd hm (hr hi).2
      · obtain ⟨m', hm', hid⟩ := hs.waiting _ (by simp) sec i rfl
        rw [hm] at hm'
        exact absurd (Option.some.inj hm' ▸ hid) hne

/-! ## Every run -/

theorem Sound.stack {s : State} (h : Sound s) {stack : List Frame} (hm : stack ∈ s.threads) :
    StackSound s.globals stack :=
  ⟨fun hi f hf => h.idle hi stack hm f hf, fun f hf => h.waiting stack hm f hf⟩

theorem sound_of_stacks {s : State} (hf : s.globals.fault = false) (hr : s.globals.Ready)
    (hs : ∀ stack ∈ s.threads, StackSound s.globals stack) : Sound s :=
  ⟨hf, hr, fun hi stack hm => (hs stack hm).idle hi, fun stack hm => (hs stack hm).waiting⟩

/-- **Step lemma.** -/
theorem sound_step {s t : State} {l : Label} (h : Sound s) (hl : Bracketed s l)
    (hstep : step s l = some t) : Sound t := by
  rcases step_cases hstep with ⟨rfl, rfl⟩ | ⟨i, a, stack, g', stack', rfl, -, hstack, heff, rfl⟩
  · refine sound_of_stacks h.fault h.objects ?_
    intro stack hm
    rcases List.mem_append.mp hm with hm | hm
    · exact h.stack hm
    · obtain rfl := List.mem_singleton.mp hm
      exact ⟨by simp, by simp⟩
  · have hmem : stack ∈ s.threads := List.mem_of_getElem? hstack
    by_cases hfin : a = .finalize
    · subst hfin
      have hidle : s.AllIdle := hl
      cases heff with
      | finalize =>
          -- the objects go, but nobody is about to use one
          refine sound_of_stacks (by simpa [fini_fault] using h.fault)
            (fun hi => absurd hi (by simp [fini_inited])) fun st hm => ?_
          have hall : ∀ st' ∈ s.threads.set i stack, ∀ f ∈ st', f.uses = false :=
            Pool.forall_set hidle (hidle stack hmem)
          exact StackSound.of_idle _ (hall st hm)
      | fault ha => exact absurd rfl ha
    · have ha : a.Bracketed s.globals := by
        cases a <;> first | exact hl | trivial
      obtain ⟨hf', hr', hs', hk⟩ := heff.sound ha hfin h.fault h.objects (h.stack hmem)
      exact sound_of_stacks hf' hr'
        (Pool.forall_set (fun st hm => (h.stack hm).keep hk) hs')

/-- **No operation on a missing object.** In every run that keeps the discipline, no step performs
    `hl_mutex_acquire`, `hl_mutex_release`, `hl_semaphore_release` or `hl_semaphore_try_acquire` on an
    object that is NULL or freed. -/
theorem bracketed_no_fault {s : State} (h : Path step Bracketed .blank s) :
    s.globals.fault = false :=
  (h.invariant (fun _ _ _ hs hC hstep => sound_step hs hC hstep) sound_blank).fault

/-- An event is delivered; its handler finalizes the module and throws. -/
theorem bracketed_no_fault_run : ∃ s, Path step Bracketed .blank s ∧ s.globals.fault = false ∧
    s.globals.dispatched = [stateChangeCallback 1 2] ∧ s.globals.inited = false := by
  have hrun : Path step Bracketed .blank _ := Path.of_exec (l :=
    [.spawn, .step 0 .init, .step 0 .create, .step 0 (.fire (.stateChange 1 2)), .step 0 .acquire,
     .step 0 .obtain, .step 0 .unlock, .step 0 .release, .step 0 .call, .step 0 .acquire,
     .step 0 .obtain, .step 0 .unlock, .step 0 .tryAcquire, .step 0 .acquire, .step 0 .obtain,
     .step 0 .unlock, .step 0 .dispatch, .step 0 .finalize, .step 0 .throw]) rfl
  exact ⟨_, hrun, bracketed_no_fault hrun, rfl, rfl⟩

/-- **A callback after `RTC.finalize`.** A connection is created and the module finalized; its callbacks
    are still registered, and the first one that fires acquires a NULL mutex. So does `processEvents`
    when it is called before `RTC.init`. -/
theorem callback_after_finalize :
    (∃ s, exec step Any .blank
      [.spawn, .step 0 .init, .step 0 .create, .step 0 .finalize, .step 0 (.fire (.stateChange 1 5)),
       .step 0 .acquire] = some s ∧ s.globals.fault = true) ∧
    (∃ s, exec step Any .blank [.spawn, .step 0 .call, .step 0 .acquire] = some s ∧
      s.globals.fault = true) :=
  ⟨⟨_, rfl, rfl⟩, ⟨_, rfl, rfl⟩⟩

end EventLoop
end HxDatachannel
