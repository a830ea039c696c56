import HxDatachannel.EventLoop.Effect
import HxDatachannel.Binding.Mailbox

/-!
# `EventLoop.Accounting` — tokens, queue and threads are in step

The invariant of the event loop: the queue is a `Fifo` whose history is conserved, and its length is the
number of tokens plus the consumers that took a token but have not popped yet plus the producers that
queued a node but have not released the semaphore yet (`Balanced`). Each step exchanges these among each
other. The one exception is `finalize`: it throws the semaphore's count away and keeps the list, so the
tokens it finds are `lost` and as many nodes stay queued without one. `Balanced lost` carries that number.
-/

namespace HxDatachannel
namespace EventLoop

open Lts

/-- The invariant: history conserved, and **tokens + claimed + owed + lost = queue length**. -/
structure Balanced (lost : Nat) (s : State) : Prop where
  conserved : s.globals.callback_results.Conserved
  sum : s.globals.tokens + s.claimed + s.owed + lost = s.globals.callback_results.queue.length
  /-- Every popped node was handed to its closure once, or is in the hands of the thread that popped it. -/
  handed : ∀ r, s.globals.callback_results.popped.count r =
    s.globals.dispatched.count r + Pool.tally (fun f => if f = .popped r then 1 else 0) s.threads

/-- The tokens a step throws away: those a `finalize` of the initialised module finds. -/
def Globals.discards (g : Globals) : Act → Nat
  | .finalize => if g.inited then g.tokens else 0
  | _         => 0

/-- The tokens a step of the program throws away. -/
def State.discards (s : State) : Label → Nat
  | .step _ a => s.globals.discards a
  | .spawn    => 0

/-- The steps that throw no token away. -/
def NoTokenLost (s : State) (l : Label) : Prop := s.discards l = 0

def Label.isFinalize : Label → Bool
  | .step _ .finalize => true
  | _                 => false

/-- The steps that are no `finalize`. -/
def NoFinalize (_ : State) (l : Label) : Prop := l.isFinalize = false

instance (s : State) (l : Label) : Decidable (NoTokenLost s l) :=
  inferInstanceAs (Decidable (s.discards l = 0))

instance (s : State) (l : Label) : Decidable (NoFinalize s l) :=
  inferInstanceAs (Decidable (l.isFinalize = false))

theorem NoFinalize.noTokenLost (s : State) (l : Label) (h : NoFinalize s l) : NoTokenLost s l := by
  cases l with
  | spawn => rfl
  | step i a =>
      cases a with
      | finalize => exact absurd h (by simp [NoFinalize, Label.isFinalize])
      | _ => rfl

/-! ## The globals' operations and the accounting data -/

@[simp] theorem init_tokens (g : Globals) : g.init.tokens = g.tokens := by
  unfold Globals.init
  split
  · simp only [Globals.tokens, Globals.initialize ]
    cases g.callback_result_semaphore <;> rfl
  · rfl

@[simp] theorem init_callback_results (g : Globals) :
    g.init.callback_results = g.callback_results := by
  unfold Globals.init; split <;> rfl

@[simp] theorem init_dispatched (g : Globals) : g.init.dispatched = g.dispatched := by
  unfold Globals.init; split <;> rfl

@[simp] theorem fini_callback_results (g : Globals) :
    g.fini.callback_results = g.callback_results := by
  unfold Globals.fini; split <;> rfl

@[simp] theorem fini_dispatched (g : Globals) : g.fini.dispatched = g.dispatched := by
  unfold Globals.fini; split <;> rfl

theorem fini_tokens (g : Globals) : g.fini.tokens + g.discards .finalize = g.tokens := by
  unfold Globals.fini Globals.discards
  split
  · simp [Globals.finalize, Globals.tokens]
  · rfl

@[simp] theorem create_tokens (g : Globals) : g.create.tokens = g.tokens := by
  unfold Globals.create; split <;> rfl

@[simp] theorem create_callback_results (g : Globals) :
    g.create.callback_results = g.callback_results := by
  unfold Globals.create; split <;> rfl

@[simp] theorem create_dispatched (g : Globals) : g.create.dispatched = g.dispatched := by
  unfold Globals.create; split <;> rfl

/-! ## The event loop refines the mailbox -/

/-- The two lists. -/
def Globals.mailbox (g : Globals) : Mailbox := ⟨g.datachannel_callbacks, g.callback_results⟩

theorem init_mailbox (g : Globals) : g.init.mailbox = g.mailbox := by
  unfold Globals.init; split <;> rfl

theorem fini_mailbox (g : Globals) : g.fini.mailbox = g.mailbox := by
  unfold Globals.fini; split <;> rfl

theorem create_mailbox (g : Globals) : g.create.mailbox = g.mailbox := by
  unfold Globals.create; split <;> rfl

/-- A critical section is one action of the mailbox, or finds nothing to take. -/
theorem run_mailbox (g : Globals) (s : Section) :
    Path Mailbox.step Any g.mailbox (s.run g).1.mailbox := by
  cases s with
  | append p =>
      cases p with
      | result r => exact g.mailbox.path_post r
      | announcement d => exact g.mailbox.path_announce d
  | popAnnouncement =>
      rw [Section.run]
      split
      · rename_i d q hpop
        exact Mailbox.path_takeAnnouncement (m := g.mailbox) hpop
      · exact Lts.Path.refl _
  | popResult =>
      rw [Section.run]
      split
      · rename_i r q hpop
        exact Mailbox.path_takeResult (m := g.mailbox) hpop
      · exact Lts.Path.refl _

theorem Effect.mailbox {g g' : Globals} {stack stack' : List Frame} {a : Act}
    (h : Effect g stack a g' stack') : Path Mailbox.step Any g.mailbox g'.mailbox := by
  cases h with
  | init => exact init_mailbox g ▸ Lts.Path.refl _
  | finalize => exact fini_mailbox g ▸ Lts.Path.refl _
  | create => exact create_mailbox g ▸ Lts.Path.refl _
  | unlock => exact run_mailbox g _
  | _ => exact Lts.Path.refl _

/-- **The event loop refines the mailbox**, whatever the threads do. -/
theorem eventLoop_refines {C : State → Label → Prop} {s t : State} (h : Path step C s t) :
    Path Mailbox.step Any s.globals.mailbox t.globals.mailbox := by
  have hsim : ∃ m, Path Mailbox.step Any s.globals.mailbox m ∧ t.globals.mailbox = m := by
    refine h.simulate (R := fun s m => s.globals.mailbox = m) ?_ rfl
    rintro s l t m rfl - hstep
    refine ⟨t.globals.mailbox, ?_, rfl⟩
    rcases step_cases hstep with ⟨-, rfl⟩ | ⟨i, a, stack, g', stack', -, -, -, heff, rfl⟩
    · exact Lts.Path.refl _
    · exact heff.mailbox
  obtain ⟨m, hm, rfl⟩ := hsim
  exact hm

/-! ## Critical sections -/

/-- A section exchanges queue length for frames: an append is owed for, a pop uses up a claim. -/
theorem run_sum {g : Globals} (s : Section) (st : LockStage)
    (hne : s = .popResult → g.callback_results.queue ≠ []) :
    Pool.weight Frame.claims (s.run g).2 + Pool.weight Frame.owes (s.run g).2
        + g.callback_results.queue.length
      = Frame.claims (.locking s st) + (s.run g).1.callback_results.queue.length := by
  cases s with
  | append p =>
      cases p with
      | result r =>
          simp only [Section.run, Pool.weight_cons, Pool.weight_nil, Frame.claims, Frame.owes,
            Fifo.push_queue, List.length_append, List.length_singleton]
          omega
      | announcement d => simp [Section.run, Frame.claims]
  | popAnnouncement => simp only [Section.run]; split <;> simp [Frame.claims, Frame.owes]
  | popResult =>
      simp only [Section.run]
      split
      · rename_i r q hp
        obtain ⟨hq, -, -⟩ := Fifo.pop_eq_some hp
        simp only [hq, Pool.weight_cons, Pool.weight_nil, Frame.claims, Frame.owes,
          List.length_cons]
        omega
      · rename_i hp
        exact absurd (Fifo.pop_eq_none hp) (hne rfl)

/-- A popped node is in the hands of the thread that popped it. -/
theorem run_handed (g : Globals) (s : Section) (r : CallbackResult) :
    (s.run g).1.callback_results.popped.count r =
      g.callback_results.popped.count r
        + Pool.weight (fun f => if f = .popped r then 1 else 0) (s.run g).2 := by
  cases s with
  | append p => cases p <;> simp [Section.run]
  | popAnnouncement => simp only [Section.run]; split <;> simp
  | popResult =>
      simp only [Section.run]
      split
      · rename_i r' q hp
        obtain ⟨-, hpop, -⟩ := Fifo.pop_eq_some hp
        simp [hpop, List.count_singleton, Frame.popped.injEq]
      · simp

/-! ## One step -/

theorem Effect.conserved {g g' : Globals} {stack stack' : List Frame} {a : Act}
    (h : Effect g stack a g' stack') (hc : g.callback_results.Conserved) :
    g'.callback_results.Conserved :=
  (Mailbox.conserved_path h.mailbox).2 hc

/-- **Exchange.** One step of a thread keeps tokens + claims + debts − queue length, but for the tokens
    it throws away. -/
theorem Effect.sum {g g' : Globals} {stack stack' : List Frame} {a : Act}
    (h : Effect g stack a g' stack')
    (hne : 0 < Pool.weight Frame.claims stack → g.callback_results.queue ≠ []) :
    g'.tokens + Pool.weight Frame.claims stack' + Pool.weight Frame.owes stack' + g.discards a
        + g.callback_results.queue.length
      = g.tokens + Pool.weight Frame.claims stack + Pool.weight Frame.owes stack
        + g'.callback_results.queue.length := by
  cases h with
  | init => simp [Globals.discards]
  | finalize =>
      have := fini_tokens g
      rw [fini_callback_results]
      omega
  | create => simp [Globals.discards]
  | @unlock s rest m hm =>
      -- a claim was made on a queue that is not empty, so the pop finds a node
      have hs := run_sum (g := g) s .locked (by
        rintro rfl
        exact hne (by simp only [Pool.weight_cons, Frame.claims]; omega))
      simp only [Pool.weight_append, Pool.weight_cons, Globals.tokens, run_semaphore,
        Globals.discards] at hs ⊢
      have hw : Frame.owes (.locking s .locked) = 0 := rfl
      omega
  | release hs =>
      -- a debt becomes a token
      simp only [Globals.tokens, hs, Option.getD_some, Pool.weight_cons, Frame.claims, Frame.owes,
        Globals.discards]
      omega
  | token hs =>
      -- a token becomes a claim
      simp only [Globals.tokens, hs, Option.getD_some, Pool.weight_cons, Frame.claims, Frame.owes,
        Globals.discards]
      omega
  | @acquire s rest m hm =>
      cases s <;> simp [Frame.claims, Frame.owes, Globals.tokens, Globals.discards]
  | @obtain s rest m hm hheld =>
      cases s <;> simp [Frame.claims, Frame.owes, Globals.tokens, Globals.discards]
  | @throw f _ hopen =>
      -- a frame that is thrown out of neither claims nor owes
      cases f <;> simp_all [Frame.claims, Frame.owes, Frame.isOpen, Globals.discards]
  | @fault f rest a ha =>
      have hz : g.discards a = 0 := by cases a <;> first | rfl | exact absurd rfl ha
      simp [Globals.tokens, hz]
  | _ => simp [Frame.claims, Frame.owes, Globals.tokens, Globals.discards]

theorem Effect.handed {g g' : Globals} {stack stack' : List Frame} {a : Act}
    (h : Effect g stack a g' stack') (r : CallbackResult) :
    g'.callback_results.popped.count r + g.dispatched.count r
        + Pool.weight (fun f => if f = .popped r then 1 else 0) stack
      = g.callback_results.popped.count r + g'.dispatched.count r
        + Pool.weight (fun f => if f = .popped r then 1 else 0) stack' := by
  cases h with
  | init => simp
  | finalize => simp
  | create => simp
  | @unlock s rest m hm =>
      have := run_handed g s r
      simp only [Pool.weight_append, Pool.weight_cons, run_dispatched, reduceCtorEq, if_false] at this ⊢
      omega
  | dispatch =>
      simp [List.count_singleton, Frame.popped.injEq]
      omega
  | @throw f _ hopen =>
      cases f <;> simp_all [Frame.isOpen]
  | _ => simp

/-! ## Every run -/

theorem balanced_blank : Balanced 0 .blank := ⟨rfl, rfl, fun _ => rfl⟩

/-- **Step lemma.** A step keeps the invariant, with what it throws away added to what is lost. -/
theorem balanced_step {s t : State} {l : Label} {lost : Nat} (h : Balanced lost s)
    (hstep : step s l = some t) : Balanced (lost + s.discards l) t := by
  rcases step_cases hstep with ⟨rfl, rfl⟩ | ⟨i, a, stack, g', stack', rfl, -, hstack, heff, rfl⟩
  · exact ⟨h.conserved, by simpa [State.claimed, State.owed, State.discards] using h.sum,
      by simpa using h.handed⟩
  · refine ⟨heff.conserved h.conserved, ?_, ?_⟩
    · have hne : 0 < Pool.weight Frame.claims stack → s.globals.callback_results.queue ≠ [] := by
        intro hpos hnil
        have hsum := h.sum
        rw [hnil, List.length_nil] at hsum
        have := Pool.weight_le_tally (w := Frame.claims) hstack
        unfold State.claimed at hsum
        omega
      have hx := heff.sum hne
      have hclaims := Pool.tally_set (w := Frame.claims) hstack stack'
      have howes := Pool.tally_set (w := Frame.owes) hstack stack'
      have hsum := h.sum
      simp only [State.claimed, State.owed, State.discards] at hsum ⊢
      omega
    · intro r
      have hx := heff.handed r
      have hset := Pool.tally_set (w := fun f => if f = .popped r then 1 else 0) hstack stack'
      have hh := h.handed r
      simp only at hh ⊢
      omega

/-- **Run lemma.** Along a run that throws no token away nothing more is lost. -/
theorem balanced_path {s t : State} {lost : Nat} (h : Path step NoTokenLost s t)
    (hs : Balanced lost s) : Balanced lost t :=
  h.invariant (fun s l _ hb hC hstep => by
    have hz : s.discards l = 0 := hC
    simpa [hz] using balanced_step hb hstep) hs

/-- **Run lemma, with losses.** Any run loses something, or is a run that throws no token away. -/
theorem balanced_exec {ls : List Label} {s t : State} {lost : Nat} (h : exec step Any s ls = some t)
    (hs : Balanced lost s) :
    ∃ lost', Balanced lost' t ∧ lost ≤ lost' ∧
      (lost' = lost ↔ exec step NoTokenLost s ls = some t) :=
  exec_ledger (fun _ _ _ _ hb hstep => balanced_step hb hstep) h hs

/-- **A poll finds a token iff something is queued**, when no callback is before its release and no other
    consumer before its pop. -/
theorem Balanced.finds_iff {s : State} (h : Balanced 0 s) (howed : s.owed = 0)
    (hclaimed : s.claimed = 0) :
    0 < s.globals.tokens ↔ s.globals.callback_results.queue ≠ [] := by
  have hsum := h.sum
  rw [← List.length_pos_iff]
  omega

end EventLoop
end HxDatachannel
