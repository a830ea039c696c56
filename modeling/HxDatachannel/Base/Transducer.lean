import Mathlib.Data.List.Basic

/-!
# `Base.Transducer` — machines that emit a list of outputs on every input

A machine is its step function `step : σ → ι → σ × List β`, total in the input; a guard `A` says which
inputs it admits in which state. Everything here is parametric in states, inputs and outputs.

## Contents
- **Runs.** `trace` (each input with what was emitted on it), `emitted` (all outputs in order),
  `Admits step A` (the guard holds of every input in the state it meets).
- **Rules.** `trace_each` (what an invariant gives of every step holds of every entry of the trace),
  `admits_congr` (guards that agree under an invariant admit the same runs), `emitted_eq_nil_iff` (when the inputs that keep the machine silent can be told one by one).
-/

namespace Transducer

variable {σ ι β : Type}

/-- Each input with the outputs that the machine emits on it. -/
def trace (step : σ → ι → σ × List β) : σ → List ι → List (ι × List β)
  | _, []      => []
  | s, a :: as => (a, (step s a).2) :: trace step (step s a).1 as

/-- The outputs of a run, in order. -/
def emitted (step : σ → ι → σ × List β) (s : σ) (as : List ι) : List β :=
  (trace step s as).flatMap Prod.snd

/-- Every input meets the guard `A` on the state before it. -/
def Admits (step : σ → ι → σ × List β) (A : σ → ι → Prop) : σ → List ι → Prop
  | _, []      => True
  | s, a :: as => A s a ∧ Admits step A (step s a).1 as

variable {step : σ → ι → σ × List β} {A : σ → ι → Prop}

instance decidableAdmits [∀ s a, Decidable (A s a)] : ∀ s as, Decidable (Admits step A s as)
  | _, []      => inferInstanceAs (Decidable True)
  | s, a :: as =>
      @instDecidableAnd _ _ (inferInstanceAs (Decidable (A s a)))
        (decidableAdmits (step s a).1 as)

@[simp] theorem emitted_nil (s : σ) : emitted step s [] = [] := rfl

@[simp] theorem emitted_cons (s : σ) (a : ι) (as : List ι) :
    emitted step s (a :: as) = (step s a).2 ++ emitted step (step s a).1 as := rfl

theorem mem_of_mem_trace {s : σ} {as : List ι} {p : ι × List β} (h : p ∈ trace step s as) : p.1 ∈ as := by
  induction as generalizing s with
  | nil => exact absurd h (by simp [trace])
  | cons a as ih =>
      rcases List.mem_cons.mp h with rfl | h
      · exact List.mem_cons_self
      · exact List.mem_cons_of_mem a (ih h)

/-- **The entry rule.** What an invariant gives of every step holds of every entry of the trace. -/
theorem trace_each {I : σ → Prop} {P : ι → List β → Prop}
    (hI : ∀ s a, I s → A s a → P a (step s a).2 ∧ I (step s a).1) {s : σ} {as : List ι}
    (h : Admits step A s as) (hs : I s) : ∀ p ∈ trace step s as, P p.1 p.2 := by
  induction as generalizing s with
  | nil => exact fun p hp => absurd hp (by simp [trace])
  | cons a as ih =>
      obtain ⟨hout, hnext⟩ := hI s a hs h.1
      intro p hp
      rcases List.mem_cons.mp hp with rfl | hp
      · exact hout
      · exact ih h.2 hnext p hp

/-- **The guard rule.** If, under an invariant, two guards admit the same inputs, and these keep the invariant,
    the two guards admit the same runs. -/
theorem admits_congr {I : σ → Prop} {B : σ → ι → Prop}
    (hI : ∀ s a, I s → (A s a ↔ B s a) ∧ (B s a → I (step s a).1)) {s : σ} {as : List ι} (hs : I s) :
    Admits step A s as ↔ Admits step B s as := by
  induction as generalizing s with
  | nil => exact Iff.rfl
  | cons a as ih =>
      obtain ⟨hiff, hnext⟩ := hI s a hs
      show A s a ∧ _ ↔ B s a ∧ _
      rw [hiff]
      exact and_congr_right fun hB => ih (hnext hB)

/-- **The silence rule.** If, under an invariant, the machine is silent on exactly the inputs that are
    `ok` and these keep the invariant, a run emits nothing iff all its inputs are `ok`. -/
theorem emitted_eq_nil_iff {I : σ → Prop} {ok : ι → Prop}
    (hI : ∀ s a, I s → A s a → ((step s a).2 = [] ↔ ok a) ∧ (ok a → I (step s a).1)) {s : σ}
    {as : List ι} (h : Admits step A s as) (hs : I s) :
    emitted step s as = [] ↔ ∀ a ∈ as, ok a := by
  induction as generalizing s with
  | nil => simp
  | cons a as ih =>
      obtain ⟨hsilent, hnext⟩ := hI s a hs h.1
      rw [emitted_cons, List.append_eq_nil_iff, hsilent, List.forall_mem_cons]
      exact and_congr_right fun hok => ih h.2 (hnext hok)

end Transducer
