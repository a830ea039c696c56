import HxDatachannel.EventLoop.Accounting

/-!
# `EventLoop.Delivery` — every queued event is delivered, once and in order

What `Balanced` means for the application. Between the first `RTC.init` and the first `RTC.finalize` the
event queue is an exactly-once FIFO whatever the threads do (`exactly_once_fifo`). Across restarts this
holds in exactly those runs in which no `RTC.finalize` finds a token (`token_per_item`): a finalize with
undelivered events frees their tokens and keeps the events (`events_stranded`).
-/

namespace HxDatachannel
namespace EventLoop

open Lts

/-! ## Until the first `finalize` -/

/-- The program right after the first `RTC.init`. -/
def State.started : State := ⟨Globals.blank.init, []⟩

theorem balanced_started : Balanced 0 .started := ⟨rfl, rfl, fun _ => rfl⟩

/-- Nothing is lost as long as nothing is finalized. -/
theorem balanced_of_started {s : State} (h : Path step NoFinalize .started s) : Balanced 0 s :=
  balanced_path (h.weaken NoFinalize.noTokenLost) balanced_started

/-- **The event queue is an exactly-once FIFO.** In every state of every interleaving that contains no
    finalize: popped events, in pop order, then the queue are the events in append order; each popped
    event was handed to its closure once or is held by the thread that popped it; tokens, consumers
    between `try_acquire` and pop and producers between unlock and release add up to the queue length;
    so a consumer that took a token finds the queue non-empty, and with no producer in its window a
    `process_events` that finds no token leaves only what other consumers are about to pop. -/
theorem exactly_once_fifo {s : State} (h : Path step NoFinalize .started s) :
    s.globals.callback_results.popped ++ s.globals.callback_results.queue
        = s.globals.callback_results.pushed ∧
    (∀ r, s.globals.callback_results.popped.count r = s.globals.dispatched.count r
        + Pool.tally (fun f => if f = .popped r then 1 else 0) s.threads) ∧
    s.globals.tokens + s.claimed + s.owed = s.globals.callback_results.queue.length ∧
    (0 < s.claimed → s.globals.callback_results.queue ≠ []) ∧
    (∀ i t, step s (.step i .tryAcquire) = some t → s.globals.tokens = 0 → s.owed = 0 →
      t.globals.callback_results.queue.length = t.claimed) := by
  have hb := balanced_of_started h
  have hsum : s.globals.tokens + s.claimed + s.owed = s.globals.callback_results.queue.length := by
    simpa using hb.sum
  refine ⟨hb.conserved, hb.handed, hsum, ?_, ?_⟩
  · intro hpos hnil
    rw [hnil, List.length_nil] at hsum
    omega
  · intro i t hstep htok howed
    rcases step_cases hstep with ⟨hl, -⟩ | ⟨j, a, stack, g', stack', hl, -, hstack, heff, rfl⟩
    · exact absurd hl (by simp)
    · obtain ⟨rfl, rfl⟩ := Label.step.inj hl
      have hclaims := Pool.tally_set (w := Frame.claims) hstack stack'
      simp only [State.claimed] at hsum hclaims ⊢
      cases heff with
      | exhausted => simp only [Pool.weight_cons, Frame.claims] at hclaims; omega
      | token hs => simp [Globals.tokens, hs] at htok
      | fault => simp only at hclaims ⊢; omega

/-- One thread delivers an event while another is queueing the next. -/
theorem exactly_once_fifo_run : ∃ s, Path step NoFinalize .started s ∧
    s.globals.callback_results.popped ++ s.globals.callback_results.queue
      = [stateChangeCallback 1 2, closedCallback 2] ∧ s.globals.tokens + s.claimed + s.owed = 1 := by
  have hrun : Path step NoFinalize .started _ := Path.of_exec (l :=
    [.spawn, .spawn, .step 0 .create, .step 1 (.fire (.stateChange 1 2)), .step 1 .acquire,
     .step 1 .obtain, .step 1 .unlock, .step 1 .release, .step 0 .call, .step 0 .acquire,
     .step 0 .obtain, .step 0 .unlock, .step 0 .tryAcquire, .step 1 (.fire (.closed 2)),
     .step 1 .acquire, .step 1 .obtain, .step 1 .unlock, .step 0 .acquire, .step 0 .obtain,
     .step 0 .unlock]) rfl
  have h := exactly_once_fifo hrun
  exact ⟨_, hrun, h.1, h.2.2.1⟩

/-! ## One call of `processEvents` -/

/-- A native callback in progress. -/
def Frame.calling : Frame → Nat
  | .locking (.append _) _ => 1
  | .release => 1
  | _ => 0

/-- A consumer that took a token and has not called the closure yet. -/
def Frame.midway : Frame → Nat
  | .locking .popResult _ => 1
  | .popped _ => 1
  | _ => 0

/-- The native callbacks in progress. -/
def State.callbacks (s : State) : Nat := Pool.tally Frame.calling s.threads

/-- The consumers between their token and their closure. -/
def State.midway (s : State) : Nat := Pool.tally Frame.midway s.threads

def Label.isFire : Label → Bool
  | .step _ (.fire _) => true
  | _                 => false

/-- No callback starts, and no token is thrown away. -/
def Undisturbed (s : State) (l : Label) : Prop := NoTokenLost s l ∧ l.isFire = false

/-- The runs that the platform allows: callbacks only start while the module is initialised. -/
def FiresInited (s : State) (l : Label) : Prop := l.isFire → s.globals.inited

instance (s : State) (l : Label) : Decidable (Undisturbed s l) :=
  inferInstanceAs (Decidable (_ ∧ _))

instance (s : State) (l : Label) : Decidable (FiresInited s l) :=
  inferInstanceAs (Decidable (_ → _))

theorem owes_le_calling (f : Frame) : f.owes ≤ f.calling := by
  cases f <;> simp [Frame.owes, Frame.calling]

theorem claims_le_midway (f : Frame) : f.claims ≤ f.midway := by
  cases f with
  | locking s st => cases s <;> simp [Frame.claims, Frame.midway]
  | _ => simp [Frame.claims, Frame.midway]

theorem popped_le_midway (r : CallbackResult) (f : Frame) :
    (if f = .popped r then 1 else 0) ≤ f.midway := by
  split
  · rename_i h; subst h; rfl
  · exact Nat.zero_le _

/-- A step that starts no callback, while none is in progress, queues nothing. -/
theorem Effect.quiet {g g' : Globals} {stack stack' : List Frame} {a : Act}
    (h : Effect g stack a g' stack') (ha : ∀ c, a ≠ .fire c)
    (hq : Pool.weight Frame.calling stack = 0) :
    Pool.weight Frame.calling stack' = 0 ∧
      g'.callback_results.pushed = g.callback_results.pushed := by
  cases h with
  | init => exact ⟨hq, by rw [init_callback_results]⟩
  | finalize => exact ⟨hq, by rw [fini_callback_results]⟩
  | create => exact ⟨hq, by rw [create_callback_results]⟩
  | fire => exact absurd rfl (ha _)
  | drop => exact absurd rfl (ha _)
  | @unlock s rest m hm =>
      cases s with
      -- no callback is in progress
      | append p => simp [Frame.calling] at hq
      | popAnnouncement =>
          simp only [Section.run]
          split <;> simp_all [Frame.calling]
      | popResult =>
          simp only [Section.run]
          split
          · rename_i r q hp
            exact ⟨by simpa [Frame.calling] using hq, (Fifo.pop_eq_some hp).2.2⟩
          · exact ⟨by simpa [Frame.calling] using hq, rfl⟩
  | @acquire s rest m hm => cases s <;> simp_all [Frame.calling]
  | @obtain s rest m hm hheld => cases s <;> simp_all [Frame.calling]
  | release => simp [Frame.calling] at hq
  | @throw f _ hopen => exact ⟨by simp_all, rfl⟩
  | _ => exact ⟨by simpa [Frame.calling] using hq, rfl⟩

/-- Nothing is queued by a stretch of a run in which no callback runs. -/
theorem quiet_path {s t : State} (h : Path step Undisturbed s t) (hs : s.callbacks = 0) :
    t.callbacks = 0 ∧ t.globals.callback_results.pushed = s.globals.callback_results.pushed := by
  refine h.invariant (I := fun u => u.callbacks = 0 ∧
    u.globals.callback_results.pushed = s.globals.callback_results.pushed) ?_ ⟨hs, rfl⟩
  rintro u l v ⟨hu, hpush⟩ ⟨-, hfire⟩ hstep
  rcases step_cases hstep with ⟨-, rfl⟩ | ⟨i, a, stack, g', stack', rfl, -, hstack, heff, rfl⟩
  · exact ⟨by simpa [State.callbacks] using hu, hpush⟩
  · have hle := Pool.weight_le_tally (w := Frame.calling) hstack
    have hset := Pool.tally_set (w := Frame.calling) hstack stack'
    simp only [State.callbacks] at hu ⊢
    obtain ⟨hz, hpush'⟩ := heff.quiet (by rintro c rfl; simp [Label.isFire] at hfire) (by omega)
    exact ⟨by omega, hpush'.trans hpush⟩

/-- A `try_acquire` that finds no token leaves none. -/
theorem tryAcquire_tokens {s t : State} {i : Nat} (h : step s (.step i .tryAcquire) = some t)
    (htok : s.globals.tokens = 0) : t.globals.tokens = 0 := by
  rcases step_cases h with ⟨hl, -⟩ | ⟨j, a, stack, g', stack', hl, -, -, heff, rfl⟩
  · exact absurd hl (by simp)
  · obtain ⟨rfl, rfl⟩ := Label.step.inj hl
    cases heff with
    | exhausted => exact htok
    | token hs => simp [Globals.tokens, hs] at htok
    | fault => exact htok

/-- When no callback and no consumer is on its way, a queue without a token holds just the nodes whose
    token was lost; so it is empty and everything that was ever queued was dispatched iff none was. -/
theorem Balanced.drained_iff {s : State} {lost : Nat} (h : Balanced lost s)
    (htok : s.globals.tokens = 0) (hcb : s.callbacks = 0) (hmid : s.midway = 0) :
    (s.globals.callback_results.queue = [] ∧
      s.globals.dispatched.Perm s.globals.callback_results.pushed) ↔ lost = 0 := by
  have howed : s.owed ≤ s.callbacks := Pool.tally_mono owes_le_calling s.threads
  have hclaimed : s.claimed ≤ s.midway := Pool.tally_mono claims_le_midway s.threads
  have hlen : s.globals.callback_results.queue.length = lost := by
    have := h.sum
    omega
  constructor
  · rintro ⟨hnil, -⟩
    rw [← hlen, hnil, List.length_nil]
  · rintro rfl
    have hnil : s.globals.callback_results.queue = [] := List.eq_nil_of_length_eq_zero hlen
    refine ⟨hnil, List.perm_iff_count.mpr ?_⟩
    intro r
    have hhand := Pool.tally_mono (popped_le_midway r) s.threads
    have hpop : s.globals.callback_results.popped = s.globals.callback_results.pushed := by
      simpa [hnil, Fifo.Conserved] using h.conserved
    have hh := h.handed r
    rw [hpop] at hh
    unfold State.midway at hmid
    omega

/-! ## Across restarts -/

/-- **One token per item, in exactly the runs that lose no token.** In every run of any number of
    init/finalize cycles: while the module is initialised and no callback is between append and release,
    the tokens (with those a `process_events` has just taken) are as many as the queued items iff every
    `finalize` of the run found no token; and a `process_events` call that returns, with no callback
    running meanwhile, leaves the queue empty and everything queued before it dispatched iff every
    `finalize` before it found no token. -/
theorem token_per_item (ls : List Label) (s : State) (hrun : exec step Any .blank ls = some s) :
    (s.globals.inited → s.owed = 0 →
      (s.globals.tokens + s.claimed = s.globals.callback_results.queue.length ↔
        exec step NoTokenLost .blank ls = some s)) ∧
    (∀ s₁ t u i, s.callbacks = 0 → step s (.step i .call) = some s₁ → Path step Undisturbed s₁ t →
      t.globals.tokens = 0 → step t (.step i .tryAcquire) = some u → u.midway = 0 →
      u.globals.callback_results.pushed = s.globals.callback_results.pushed ∧
      ((u.globals.callback_results.queue = [] ∧
          u.globals.dispatched.Perm u.globals.callback_results.pushed) ↔
        exec step NoTokenLost .blank ls = some s)) := by
  obtain ⟨lost, hb, -, hiff⟩ := balanced_exec hrun balanced_blank
  constructor
  · intro _ howed
    have hsum := hb.sum
    rw [← hiff]
    omega
  · intro s₁ t u i hcb hcall hpath htok htry hmid
    have hcall' : Path step Undisturbed s s₁ := Path.single (a := .step i .call) ⟨rfl, rfl⟩ hcall
    have htry' : Path step Undisturbed t u := Path.single (a := .step i .tryAcquire) ⟨rfl, rfl⟩ htry
    have hall : Path step Undisturbed s u := (hcall'.trans hpath).trans htry'
    have hb' : Balanced lost u := balanced_path (hall.weaken fun _ _ hC => hC.1) hb
    obtain ⟨hcb', hpush⟩ := quiet_path hall hcb
    have htok' : u.globals.tokens = 0 := tryAcquire_tokens htry htok
    rw [← hiff]
    exact ⟨hpush, hb'.drained_iff htok' hcb' hmid⟩

/-- The module is restarted while nothing is queued, then an event is queued and polled. -/
theorem token_per_item_run : ∃ s u : State, Path step NoTokenLost .blank s ∧
    s.globals.tokens + s.claimed = s.globals.callback_results.queue.length ∧
    s.globals.callback_results.queue = [stateChangeCallback 1 2] ∧
    u.globals.callback_results.queue = [] ∧
    u.globals.dispatched.Perm [stateChangeCallback 1 2] := by
  obtain ⟨s, s₁, t, u, hs, hcall, hbody, hlast, hin, howed, hcb, htok, hmid, hq, hpush⟩ :
      ∃ s s₁ t u,
        exec step NoTokenLost .blank
          [.spawn, .step 0 .init, .step 0 .finalize, .step 0 .init, .step 0 .create,
           .step 0 (.fire (.stateChange 1 2)), .step 0 .acquire, .step 0 .obtain, .step 0 .unlock,
           .step 0 .release] = some s ∧
        step s (.step 0 .call) = some s₁ ∧
        exec step Undisturbed s₁
          [.step 0 .acquire, .step 0 .obtain, .step 0 .unlock, .step 0 .tryAcquire,
           .step 0 .acquire, .step 0 .obtain, .step 0 .unlock, .step 0 .dispatch, .step 0 .ret]
          = some t ∧
        step t (.step 0 .tryAcquire) = some u ∧ s.globals.inited = true ∧ s.owed = 0 ∧
        s.callbacks = 0 ∧ t.globals.tokens = 0 ∧ u.midway = 0 ∧
        s.globals.callback_results.queue = [stateChangeCallback 1 2] ∧
        s.globals.callback_results.pushed = [stateChangeCallback 1 2] :=
    ⟨_, _, _, _, rfl, rfl, rfl, rfl, rfl, rfl, rfl, rfl, rfl, rfl, rfl⟩
  have hpath : Path step NoTokenLost .blank s := Path.of_exec hs
  have hany : exec step Any .blank _ = some s := exec_weaken (fun _ _ _ => trivial) hs
  obtain ⟨htokens, hdrained⟩ := token_per_item _ s hany
  obtain ⟨hsame, hiff⟩ := hdrained s₁ t u 0 hcb hcall (Path.of_exec hbody) htok hlast hmid
  obtain ⟨hnil, hperm⟩ := hiff.mpr hs
  rw [hsame, hpush] at hperm
  exact ⟨s, u, hpath, (htokens hin howed).mpr hs, hq, hnil, hperm⟩

/-- **An event stranded by a restart.** A state change is queued while the module is initialised, the
    application finalizes before it polls and starts again: no callback is running, one event is queued,
    no token is left, and a whole `processEvents` call dispatches nothing. -/
theorem events_stranded : ∃ s u,
    exec step FiresInited .blank
      [.spawn, .step 0 .init, .step 0 .create, .step 0 (.fire (.stateChange 1 2)), .step 0 .acquire,
       .step 0 .obtain, .step 0 .unlock, .step 0 .release, .step 0 .finalize, .step 0 .init] = some s ∧
    s.globals.inited ∧ s.callbacks = 0 ∧ s.claimed = 0 ∧
    s.globals.tokens ≠ s.globals.callback_results.queue.length ∧
    exec step Undisturbed s
      [.step 0 .call, .step 0 .acquire, .step 0 .obtain, .step 0 .unlock, .step 0 .tryAcquire]
      = some u ∧
    u.threads = s.threads ∧ u.globals.callback_results.queue = [stateChangeCallback 1 2] ∧
    u.globals.dispatched = [] :=
  ⟨_, _, rfl, rfl, rfl, rfl, by decide, rfl, rfl, rfl, rfl⟩

end EventLoop
end HxDatachannel
