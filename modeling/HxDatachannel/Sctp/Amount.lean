import HxDatachannel.Sctp.Queue

/-!
# `Sctp.Amount` — what a channel hears of its buffered amount

The channel of a stream hears of every change of the amount, so what it holds is the amount of the stream.
Each time the amount falls to the threshold or below, `bufferedAmountLowCallback` is called, once: the
calls and the times that the amount rose above the threshold are in balance.
-/

namespace HxDatachannel.Sctp

open Lts

variable {cfg : Config} {σ τ : Transport}

/-- Every channel that had a report holds the amount of its stream. -/
def Heard (σ : Transport) : Prop :=
  ∀ stream c, σ.channels stream = some c →
    c.bufferedAmount = if c.reported then σ.mBufferedAmount stream else 0

/-- 1 while the amount is above the threshold. -/
def Channel.above (c : Channel) : Nat := if c.bufferedAmount > c.bufferedAmountLowThreshold then 1 else 0

/-- The channel of a stream is there, with the threshold that it had, and its calls and rises have stayed
    in balance. -/
def Balanced (stream : Nat) (σ τ : Transport) : Prop :=
  ∀ c, σ.channels stream = some c → ∃ c', τ.channels stream = some c' ∧
    c'.bufferedAmountLowThreshold = c.bufferedAmountLowThreshold ∧
    c.rises ≤ c'.rises ∧ c'.low + c'.above + c.rises = c.low + c.above + c'.rises

/-! ## A report -/

theorem report_self {stream amount : Nat} {c : Channel} (h : σ.channels stream = some c) :
    σ.report stream amount stream = some (c.triggerBufferedAmount amount) := by
  rw [Transport.report, Function.update_self, h]
  rfl

theorem report_of_ne {stream s amount : Nat} (h : s ≠ stream) : σ.report stream amount s = σ.channels s := by
  rw [Transport.report, Function.update_of_ne h]

/-- A report keeps the balance. -/
theorem trigger_balance (c : Channel) (amount : Nat) :
    (c.triggerBufferedAmount amount).low + (c.triggerBufferedAmount amount).above + c.rises =
      c.low + c.above + (c.triggerBufferedAmount amount).rises := by
  unfold Channel.triggerBufferedAmount Channel.above
  dsimp only
  by_cases hold : c.bufferedAmount ≤ c.bufferedAmountLowThreshold <;>
    by_cases hnew : amount ≤ c.bufferedAmountLowThreshold <;> simp only [gt_iff_lt] <;> split_ifs <;> omega

theorem trigger_rises (c : Channel) (amount : Nat) : c.rises ≤ (c.triggerBufferedAmount amount).rises := by
  unfold Channel.triggerBufferedAmount
  dsimp only
  split <;> omega

theorem Balanced.refl (stream : Nat) (σ : Transport) : Balanced stream σ σ :=
  fun c h => ⟨c, h, rfl, Nat.le_refl _, rfl⟩

theorem Balanced.trans {stream : Nat} {ρ : Transport} (h : Balanced stream σ τ) (h' : Balanced stream τ ρ) :
    Balanced stream σ ρ := by
  intro c hc
  obtain ⟨c', hc', ht, hr, hb⟩ := h c hc
  obtain ⟨c'', hc'', ht', hr', hb'⟩ := h' c' hc'
  exact ⟨c'', hc'', ht'.trans ht, Nat.le_trans hr hr', by omega⟩

theorem balanced_update (stream : Nat) (σ : Transport) (s : Nat) (delta : Int) :
    Balanced stream σ (σ.updateBufferedAmount s delta) := by
  by_cases hd : delta = 0
  · rw [hd, updateBufferedAmount_zero]
    exact Balanced.refl stream σ
  · intro c hc
    rw [updateBufferedAmount_eq hd]
    by_cases hs : stream = s
    · subst hs
      exact ⟨_, report_self hc, rfl, trigger_rises c _, trigger_balance c _⟩
    · exact ⟨c, (report_of_ne hs).trans hc, rfl, Nat.le_refl _, rfl⟩

theorem Heard.update (h : Heard σ) (s : Nat) (delta : Int) : Heard (σ.updateBufferedAmount s delta) := by
  by_cases hd : delta = 0
  · rw [hd, updateBufferedAmount_zero]
    exact h
  · rw [updateBufferedAmount_eq hd]
    intro stream c hc
    by_cases hs : stream = s
    · subst hs
      dsimp only at hc ⊢
      rw [Function.update_self]
      cases hold : σ.channels stream with
      | none =>
          rw [Transport.report, Function.update_self, hold] at hc
          exact absurd hc (by simp)
      | some c₀ =>
          rw [report_self hold] at hc
          obtain rfl := Option.some.inj hc
          rfl
    · dsimp only at hc ⊢
      rw [report_of_ne hs] at hc
      rw [Function.update_of_ne hs]
      exact h stream c hc

/-! ## The moves -/

theorem heard_closed : Closed Heard where
  held _ _ _ h := h
  popped σ m ms as r h _ hq := by
    refine Heard.update ?_ m.stream _
    unfold Transport.pop
    split <;> exact h
  shutdown σ h _ := by
    rcases shutdown_cases σ with ⟨heq, _⟩ | ⟨_, _, as, heq | heq⟩ <;> rw [heq] <;> exact h
  state _ _ _ _ h := h
  receive _ _ _ _ _ _ _ _ _ h := h
  schedule _ _ _ _ h := h
  passed _ _ _ _ h _ _ := h
  wait σ m h := by
    refine Heard.update ?_ m.stream _
    unfold Transport.push
    split <;> exact h
  stop _ h := h
  abort _ h := h

theorem balanced_closed (stream : Nat) (σ : Transport) : Closed (Balanced stream σ) where
  held _ _ _ h := h
  popped τ m ms as r h _ hq := by
    refine Balanced.trans ?_ (balanced_update stream _ m.stream _)
    unfold Transport.pop
    split <;> exact h
  shutdown τ h _ := by
    rcases shutdown_cases τ with ⟨heq, _⟩ | ⟨_, _, as, heq | heq⟩ <;> rw [heq] <;> exact h
  state _ _ _ _ h := h
  receive _ _ _ _ _ _ _ _ _ h := h
  schedule _ _ _ _ h := h
  passed _ _ _ _ h _ _ := h
  wait τ m h := by
    refine Balanced.trans ?_ (balanced_update stream _ m.stream _)
    unfold Transport.push
    split <;> exact h
  stop _ h := h
  abort _ h := h

theorem Heard.step (h : Heard σ) {a : Act} (hstep : Sctp.step cfg σ a = some τ) : Heard τ := by
  cases a with
  | register stream =>
      simp only [Sctp.step, Option.ite_none_right_eq_some, Option.some.injEq] at hstep
      obtain ⟨_, rfl⟩ := hstep
      intro s c hc
      dsimp only at hc
      by_cases hs : s = stream
      · subst hs
        rw [Function.update_self] at hc
        obtain rfl := Option.some.inj hc
        rfl
      · rw [Function.update_of_ne hs] at hc
        exact h s c hc
  | unregister stream =>
      obtain rfl := Option.some.inj hstep
      intro s c hc
      dsimp only at hc
      by_cases hs : s = stream
      · subst hs
        rw [Function.update_self] at hc
        exact absurd hc (by simp)
      · rw [Function.update_of_ne hs] at hc
        exact h s c hc
  | setBufferedAmountLowThreshold stream n =>
      simp only [Sctp.step] at hstep
      split at hstep
      · exact absurd hstep (by simp)
      · rename_i c₀ hc₀
        obtain rfl := Option.some.inj hstep
        intro s c hc
        dsimp only at hc
        by_cases hs : s = stream
        · subst hs
          rw [Function.update_self] at hc
          obtain rfl := Option.some.inj hc
          exact h s c₀ hc₀
        · rw [Function.update_of_ne hs] at hc
          exact h s c hc
  | _ => exact heard_closed.step hstep (by simp) (by simp) (by simp) h

theorem Heard.run (h : Path (Sctp.step cfg) Any Transport.init σ) : Heard σ :=
  h.invariant (fun _ _ _ hi _ hs => hi.step hs) (fun _ _ hc => absurd hc (by simp [Transport.init]))

/-- The step does not take the channel of a stream out of the table, and does not change its threshold. -/
def Keeps (stream : Nat) (_ : Transport) : Act → Prop
  | .unregister s                      => s ≠ stream
  | .setBufferedAmountLowThreshold s _ => s ≠ stream
  | _                                  => True

theorem Balanced.step {stream : Nat} {a : Act} (ha : Keeps stream σ a)
    (hstep : Sctp.step cfg σ a = some τ) : Balanced stream σ τ := by
  have hother : ∀ {s : Nat} {x : Option Channel}, s ≠ stream →
      Balanced stream σ { σ with channels := Function.update σ.channels s x } := by
    intro s x hs c hc
    exact ⟨c, (Function.update_of_ne (Ne.symm hs) x σ.channels).trans hc, rfl, Nat.le_refl _, rfl⟩
  cases a with
  | register s =>
      simp only [Sctp.step, Option.ite_none_right_eq_some, Option.some.injEq] at hstep
      obtain ⟨hnone, rfl⟩ := hstep
      by_cases hs : s = stream
      · subst hs
        intro c hc
        rw [hnone] at hc
        exact absurd hc (by simp)
      · exact hother hs
  | unregister s => exact Option.some.inj hstep ▸ hother ha
  | setBufferedAmountLowThreshold s n =>
      simp only [Sctp.step] at hstep
      split at hstep
      · exact absurd hstep (by simp)
      · exact Option.some.inj hstep ▸ hother ha
  | _ => exact (balanced_closed stream σ).step hstep (by simp) (by simp) (by simp) (Balanced.refl stream σ)

/-! ## Results -/

/-- **Amounts.** In every run the amount of a stream counts the messages that wait on it, and those that
    were pushed on the stopped queue. Its channel holds that amount, once it had a report. What is counted
    as sent and what waits add up to what was put in. -/
theorem amounts_exact {as : List Act} (h : exec (Sctp.step cfg) Any Transport.init as = some σ) :
    (∀ stream,
      σ.mBufferedAmount stream = buffered stream σ.mSendQueue.queue + buffered stream σ.mDropped ∧
      ∀ c, σ.channels stream = some c → c.reported = true → c.bufferedAmount = σ.mBufferedAmount stream) ∧
    (σ.mStopping = false → σ.mDropped = []) ∧
    σ.mBytesSent + size σ.mSendQueue.queue = size (accepted cfg .init as) := by
  have hpath := Path.of_exec h
  have hi := Inv.run hpath
  refine ⟨fun stream => ⟨hi.amount stream, ?_⟩, hi.dropped, ?_⟩
  · intro c hc hr
    rw [Heard.run hpath stream c hc, if_pos hr]
  · have hpushed : σ.mSendQueue.pushed = accepted cfg .init as :=
      exec_collect (L := fun σ => σ.mSendQueue.pushed) (fun _ _ _ hs => step_pushed hs) h
    rw [hi.bytes, ← size_append, ← hpushed]
    exact congrArg size hi.conserved

theorem Balanced.run {stream : Nat} (h : Path (Sctp.step cfg) (Keeps stream) σ τ) : Balanced stream σ τ :=
  h.relation (Balanced.refl stream) (fun _ _ _ h h' => h.trans h') (fun _ _ _ ha hs => Balanced.step ha hs)

/-- An amount that was above the threshold and is not any more was called back. -/
theorem low_of_balanced {c c' : Channel} (ht : c'.bufferedAmountLowThreshold = c.bufferedAmountLowThreshold)
    (hr : c.rises ≤ c'.rises) (hlow : c'.low + c'.above + c.rises = c.low + c.above + c'.rises)
    (habove : c.bufferedAmountLowThreshold < c.bufferedAmount)
    (hbelow : c'.bufferedAmount ≤ c.bufferedAmountLowThreshold) : c.low < c'.low := by
  have hup : c.above = 1 := if_pos habove
  have hdown : c'.above = 0 := if_neg (by omega)
  omega

/-- **The callback for a low amount.** While a channel stays in the table and its threshold stays, the calls
    of `bufferedAmountLowCallback` and the times that the amount rose above the threshold are in balance. If
    the amount was above the threshold and is not any more, the callback was called. -/
theorem low_called {stream : Nat} {c : Channel} (h : Path (Sctp.step cfg) (Keeps stream) σ τ)
    (hc : σ.channels stream = some c) :
    ∃ c', τ.channels stream = some c' ∧
      c'.bufferedAmountLowThreshold = c.bufferedAmountLowThreshold ∧
      c'.low + c'.above + c.rises = c.low + c.above + c'.rises ∧
      (c.bufferedAmountLowThreshold < c.bufferedAmount →
        c'.bufferedAmount ≤ c.bufferedAmountLowThreshold → c.low < c'.low) := by
  obtain ⟨c', hc', ht, hr, hlow⟩ := Balanced.run h c hc
  exact ⟨c', hc', ht, hlow, low_of_balanced ht hr hlow⟩

instance (stream : Nat) (σ : Transport) : (a : Act) → Decidable (Keeps stream σ a)
  | .unregister s                      => inferInstanceAs (Decidable (s ≠ stream))
  | .setBufferedAmountLowThreshold s _ => inferInstanceAs (Decidable (s ≠ stream))
  | .start | .incoming | .send _ _ | .closeStream _ | .close | .upcall _ _ | .task _ | .arrive _
  | .register _                        => isTrue trivial

/-! ## A run -/

/-- A channel with the threshold 1 writes two bytes that wait. -/
def writing : List Act :=
  connect ++ [.register 0, .setBufferedAmountLowThreshold 0 1, .send (some (text 0 [1, 2])) []]

/-- The socket can be written again. -/
def draining : List Act := [.upcall false true, .task [none]]

theorem amounts_exact_writing :
    ∃ σ, exec (Sctp.step machine) Any Transport.init writing = some σ ∧
      (∀ stream,
        σ.mBufferedAmount stream = buffered stream σ.mSendQueue.queue + buffered stream σ.mDropped ∧
        ∀ c, σ.channels stream = some c → c.reported = true → c.bufferedAmount = σ.mBufferedAmount stream) ∧
      (σ.mStopping = false → σ.mDropped = []) ∧
      σ.mBytesSent + size σ.mSendQueue.queue = size (accepted machine .init writing) :=
  ⟨_, rfl, amounts_exact rfl⟩

def written : Transport := (exec (Sctp.step machine) Any .init writing).getD .init

def drained : Transport := (exec (Sctp.step machine) (Keeps 0) written draining).getD .init

theorem written_run : exec (Sctp.step machine) Any .init writing = some written := rfl

theorem drained_run : exec (Sctp.step machine) (Keeps 0) written draining = some drained := rfl

theorem low_called_draining :
    ∃ c c', written.channels 0 = some c ∧ drained.channels 0 = some c' ∧ c.low < c'.low := by
  have hc : written.channels 0 = some ⟨2, 1, true, 0, 1⟩ := rfl
  obtain ⟨c', hc', _, _, hlow⟩ := low_called (Path.of_exec drained_run) hc
  have hdrained : drained.channels 0 = some ⟨0, 1, true, 1, 1⟩ := rfl
  obtain rfl := Option.some.inj (hdrained.symm.trans hc')
  exact ⟨_, _, hc, hdrained, hlow (by decide) (by decide)⟩

end HxDatachannel.Sctp
