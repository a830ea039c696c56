import Mathlib.Logic.Relation

/-!
# `Base.Lts` — runs of an executable labelled transition system

A system is its step function `step : σ → ι → Option σ` (`none`: the action is not enabled). Everything
here is parametric in the state and action types.

## Contents
- **Runs.** `Path step C`: finitely many steps, each of which meets the guard `C` on the state before
  it; `exec`: the same runs as a computation on a list of actions, so that a concrete run can be
  evaluated.
- **Rules.** `Path.invariant` (what every step preserves holds along a run), `Path.relation` (what every
  step relates, a run relates), `Path.simulate` (a step-by-step simulation lifts to runs),
  `exec_log` (what the actions say is what the log holds), `exec_collect` (the same where it depends on the
  state), `exec_flow` (what every step takes in, holds and gives out balances, so it does over a run),
  `exec_component`, `exec_project` and `collect_project` (a run of a system is a run of its components), `exec_bounded` and
  `exec_exhaust` (a measure that every step lowers bounds the length of a run, and some run comes to rest),
  `exec_ledger` (an invariant that adds up a cost tells which runs cost nothing).
-/

namespace Lts

variable {σ ι : Type}

/-- One step from `s` to `t` by some action that meets the guard `C`. -/
def Move (step : σ → ι → Option σ) (C : σ → ι → Prop) (s t : σ) : Prop :=
  ∃ a, C s a ∧ step s a = some t

/-- A run from `s` to `t`, every step of which meets the guard `C`. -/
def Path (step : σ → ι → Option σ) (C : σ → ι → Prop) : σ → σ → Prop :=
  Relation.ReflTransGen (Move step C)

/-- The guard that every step meets. -/
def Any (_ : σ) (_ : ι) : Prop := True

instance (s : σ) (a : ι) : Decidable (Any s a) := inferInstanceAs (Decidable True)

/-- Run a list of actions; `none` as soon as one is not enabled or does not meet the guard. -/
def exec (step : σ → ι → Option σ) (C : σ → ι → Prop) [∀ s a, Decidable (C s a)] :
    σ → List ι → Option σ
  | s, []      => some s
  | s, a :: as => if C s a then (step s a).bind (fun t => exec step C t as) else none

variable {step : σ → ι → Option σ} {C D : σ → ι → Prop}

/-! ## Building runs -/

theorem Path.refl (s : σ) : Path step C s s := Relation.ReflTransGen.refl

theorem Path.tail {s t u : σ} {a : ι} (h : Path step C s t) (hC : C t a)
    (hstep : step t a = some u) : Path step C s u :=
  Relation.ReflTransGen.tail h ⟨a, hC, hstep⟩

theorem Path.single {s t : σ} {a : ι} (hC : C s a) (hstep : step s a = some t) : Path step C s t :=
  (Path.refl s).tail hC hstep

theorem Path.trans {s t u : σ} (h : Path step C s t) (h' : Path step C t u) : Path step C s u :=
  Relation.ReflTransGen.trans h h'

/-- A run under a stronger guard is a run under a weaker one. -/
theorem Path.weaken {s t : σ} (hCD : ∀ s a, C s a → D s a) (h : Path step C s t) :
    Path step D s t := by
  refine Relation.ReflTransGen.mono ?_ _ _ h
  rintro s t ⟨a, hC, hstep⟩
  exact ⟨a, hCD s a hC, hstep⟩

/-- What `exec` computes is a run. -/
theorem Path.of_exec [∀ s a, Decidable (C s a)] {l : List ι} {s t : σ}
    (h : exec step C s l = some t) : Path step C s t := by
  induction l generalizing s with
  | nil =>
      simp only [exec, Option.some.injEq] at h
      exact h ▸ Path.refl s
  | cons a as ih =>
      simp only [exec] at h
      split at h
      · rename_i hC
        obtain ⟨u, hu, hrest⟩ := Option.bind_eq_some_iff.mp h
        exact (Path.single hC hu).trans (ih hrest)
      · exact absurd h (by simp)

theorem exec_trans [∀ s a, Decidable (C s a)] {as bs : List ι} {s t u : σ} (h : exec step C s as = some t)
    (h' : exec step C t bs = some u) : exec step C s (as ++ bs) = some u := by
  induction as generalizing s with
  | nil =>
      simp only [exec, Option.some.injEq] at h
      rw [h]
      exact h'
  | cons a as ih =>
      simp only [exec, List.cons_append] at h ⊢
      split at h
      · rename_i hC
        obtain ⟨v, hv, hrest⟩ := Option.bind_eq_some_iff.mp h
        rw [if_pos hC, hv]
        exact ih hrest
      · exact absurd h (by simp)

/-- A computed run under a stronger guard is one under a weaker guard. -/
theorem exec_weaken [∀ s a, Decidable (C s a)] [∀ s a, Decidable (D s a)]
    (hCD : ∀ s a, C s a → D s a) {as : List ι} {s t : σ} (h : exec step C s as = some t) :
    exec step D s as = some t := by
  induction as generalizing s with
  | nil => exact h
  | cons a as ih =>
      simp only [exec] at h ⊢
      split at h
      · rename_i hC
        obtain ⟨u, hu, hrest⟩ := Option.bind_eq_some_iff.mp h
        rw [if_pos (hCD s a hC), hu]
        exact ih hrest
      · exact absurd h (by simp)

/-- A run stands where each of its actions is taken. -/
theorem exec_mem {as : List ι} {a : ι} {s t : σ} (h : exec step Any s as = some t) (ha : a ∈ as) :
    ∃ u v, Path step Any s u ∧ step u a = some v ∧ Path step Any v t := by
  induction as generalizing s with
  | nil => exact absurd ha (by simp)
  | cons b as ih =>
      simp only [exec, Any] at h
      obtain ⟨u, hu, hrest⟩ := Option.bind_eq_some_iff.mp h
      rcases List.mem_cons.mp ha with rfl | ha
      · exact ⟨s, u, Path.refl s, hu, Path.of_exec hrest⟩
      · obtain ⟨v, v', hv, hstep, hv'⟩ := ih hrest ha
        exact ⟨v, v', (Path.single trivial hu).trans hv, hstep, hv'⟩

/-! ## Rules for runs -/

/-- **The invariant rule.** What holds at the start and is preserved by every step holds at the end. -/
theorem Path.invariant {I : σ → Prop} (hI : ∀ s a t, I s → C s a → step s a = some t → I t)
    {s t : σ} (h : Path step C s t) (hs : I s) : I t := by
  induction h with
  | refl => exact hs
  | tail _ hmove ih =>
      obtain ⟨a, hC, hstep⟩ := hmove
      exact hI _ a _ ih hC hstep

/-- **The relation rule.** A reflexive transitive relation between the states before and after a step
    relates the two ends of a run. -/
theorem Path.relation {R : σ → σ → Prop} (hrefl : ∀ s, R s s)
    (htrans : ∀ s t u, R s t → R t u → R s u) (hR : ∀ s a t, C s a → step s a = some t → R s t)
    {s t : σ} (h : Path step C s t) : R s t := by
  induction h with
  | refl => exact hrefl _
  | tail _ hmove ih =>
      obtain ⟨a, hC, hstep⟩ := hmove
      exact htrans _ _ _ ih (hR _ a _ hC hstep)

/-- **The simulation rule.** If every step from related states is matched by a run of the other system
    to related states, every run is. -/
theorem Path.simulate {σ' ι' : Type} {step' : σ' → ι' → Option σ'} {C' : σ' → ι' → Prop}
    {R : σ → σ' → Prop}
    (hR : ∀ s a t s', R s s' → C s a → step s a = some t → ∃ t', Path step' C' s' t' ∧ R t t')
    {s t : σ} {s' : σ'} (h : Path step C s t) (hs : R s s') :
    ∃ t', Path step' C' s' t' ∧ R t t' := by
  induction h with
  | refl => exact ⟨s', Path.refl s', hs⟩
  | tail _ hmove ih =>
      obtain ⟨a, hC, hstep⟩ := hmove
      obtain ⟨u', hpath, hu⟩ := ih
      obtain ⟨t', hpath', ht⟩ := hR _ a _ u' hu hC hstep
      exact ⟨t', hpath.trans hpath', ht⟩

/-- **The log rule.** If every step appends to a log what its action says, a run appends what its actions
    say, in order. -/
theorem exec_log {β : Type} {L : σ → List β} {out : ι → Option β}
    (hlog : ∀ s a t, step s a = some t → L t = L s ++ (out a).toList) {as : List ι} {s t : σ}
    (h : exec step Any s as = some t) : L t = L s ++ as.filterMap out := by
  induction as generalizing s with
  | nil =>
      simp only [exec, Option.some.injEq] at h
      rw [h, List.filterMap_nil, List.append_nil]
  | cons a as ih =>
      simp only [exec, Any] at h
      obtain ⟨u, hu, hrest⟩ := Option.bind_eq_some_iff.mp h
      rw [ih hrest, hlog s a u hu, List.append_assoc]
      cases ha : out a <;> simp [ha]

/-- What the steps of a run say, each in the state that it meets. -/
def collect {β : Type} (step : σ → ι → Option σ) (out : σ → ι → List β) : σ → List ι → List β
  | _, []      => []
  | s, a :: as =>
      match step s a with
      | none   => []
      | some t => out s a ++ collect step out t as

/-- **The history rule.** If every step appends to a log what it says in the state that it meets, a run
    appends what its steps say, in order. -/
theorem exec_collect {β : Type} {L : σ → List β} {out : σ → ι → List β}
    (hlog : ∀ s a t, step s a = some t → L t = L s ++ out s a) {as : List ι} {s t : σ}
    (h : exec step Any s as = some t) : L t = L s ++ collect step out s as := by
  induction as generalizing s with
  | nil =>
      simp only [exec, Option.some.injEq] at h
      rw [h, collect, List.append_nil]
  | cons a as ih =>
      simp only [exec, Any] at h
      obtain ⟨u, hu, hrest⟩ := Option.bind_eq_some_iff.mp h
      rw [ih hrest, hlog s a u hu, collect, hu, List.append_assoc]

/-- **The flow rule.** If with every step what was inside and what comes in is what goes out and what stays
    inside, in order, then so it is over a run. -/
theorem exec_flow {β : Type} {inside : σ → List β} {enters leaves : σ → ι → List β}
    (hflow : ∀ s a t, step s a = some t → inside s ++ enters s a = leaves s a ++ inside t) {as : List ι} {s t : σ}
    (h : exec step Any s as = some t) :
    inside s ++ collect step enters s as = collect step leaves s as ++ inside t := by
  induction as generalizing s with
  | nil =>
      simp only [exec, Option.some.injEq] at h
      rw [h, collect, collect, List.append_nil, List.nil_append]
  | cons a as ih =>
      simp only [exec, Any] at h
      obtain ⟨u, hu, hrest⟩ := Option.bind_eq_some_iff.mp h
      simp only [collect, hu]
      rw [← List.append_assoc, hflow s a u hu, List.append_assoc, ih hrest, List.append_assoc]

/-- **The component rule.** If every step of a system is a step of a component or leaves it alone, a run of
    the system is a run of the component. -/
theorem exec_component {σ' ι' : Type} {step' : σ' → ι' → Option σ'} {f : σ' → σ} {part : ι' → Option ι}
    (hpart : ∀ s a t, step' s a = some t →
      match part a with
      | none   => f t = f s
      | some b => step (f s) b = some (f t)) {as : List ι'} {s t : σ'}
    (h : exec step' Any s as = some t) : exec step Any (f s) (as.filterMap part) = some (f t) := by
  induction as generalizing s with
  | nil =>
      simp only [exec, Option.some.injEq] at h
      rw [h]
      rfl
  | cons a as ih =>
      simp only [exec, Any] at h
      obtain ⟨u, hu, hrest⟩ := Option.bind_eq_some_iff.mp h
      have hstep := hpart s a u hu
      cases ha : part a with
      | none =>
          rw [ha] at hstep
          rw [List.filterMap_cons_none ha, ← hstep]
          exact ih hrest
      | some b =>
          rw [ha] at hstep
          rw [List.filterMap_cons_some ha]
          simp only [exec, Any, if_true, hstep, Option.bind_some]
          exact ih hrest

/-- **The projection rule.** The component rule where the invariant `I` tells which steps of the component a
    step of the system is. -/
theorem exec_project {σ' ι' : Type} {step' : σ' → ι' → Option σ'} {I : σ' → Prop} {f : σ' → σ}
    {part : σ' → ι' → List ι} (hI : ∀ s a t, I s → step' s a = some t → I t)
    (hpart : ∀ s a t, I s → step' s a = some t → exec step Any (f s) (part s a) = some (f t))
    {as : List ι'} {s t : σ'} (hs : I s) (h : exec step' Any s as = some t) :
    exec step Any (f s) (collect step' part s as) = some (f t) := by
  induction as generalizing s with
  | nil =>
      simp only [exec, Option.some.injEq] at h
      rw [h]
      rfl
  | cons a as ih =>
      simp only [exec, Any] at h
      obtain ⟨u, hu, hrest⟩ := Option.bind_eq_some_iff.mp h
      simp only [collect, hu]
      exact exec_trans (hpart s a u hs hu) (ih (hI s a u hs hu) hrest)

theorem collect_append {β : Type} {out : σ → ι → List β} {as bs : List ι} {s t : σ}
    (h : exec step Any s as = some t) :
    collect step out s (as ++ bs) = collect step out s as ++ collect step out t bs := by
  induction as generalizing s with
  | nil =>
      simp only [exec, Option.some.injEq] at h
      rw [h]
      rfl
  | cons a as ih =>
      simp only [exec, Any] at h
      obtain ⟨u, hu, hrest⟩ := Option.bind_eq_some_iff.mp h
      simp only [List.cons_append, collect, hu]
      rw [ih hrest, List.append_assoc]

/-- Steps that say nothing under an invariant. -/
theorem collect_eq_nil {β : Type} {I : σ → Prop} {out : σ → ι → List β}
    (hI : ∀ s a t, I s → step s a = some t → I t) (hout : ∀ s a t, I s → step s a = some t → out s a = [])
    {s : σ} (hs : I s) (as : List ι) : collect step out s as = [] := by
  induction as generalizing s with
  | nil => rfl
  | cons a as ih =>
      rw [collect]
      split
      · rfl
      · rename_i t hstep
        rw [hout s a t hs hstep, ih (hI s a t hs hstep), List.append_nil]

/-- What the component says of its steps is what the system says of them. -/
theorem collect_project {σ' ι' β : Type} {step' : σ' → ι' → Option σ'} {I : σ' → Prop} {f : σ' → σ}
    {part : σ' → ι' → List ι} {out : σ → ι → List β} {out' : σ' → ι' → List β}
    (hI : ∀ s a t, I s → step' s a = some t → I t)
    (hpart : ∀ s a t, I s → step' s a = some t → exec step Any (f s) (part s a) = some (f t))
    (hout : ∀ s a t, I s → step' s a = some t → collect step out (f s) (part s a) = out' s a)
    {as : List ι'} {s t : σ'} (hs : I s) (h : exec step' Any s as = some t) :
    collect step out (f s) (collect step' part s as) = collect step' out' s as := by
  induction as generalizing s with
  | nil => rfl
  | cons a as ih =>
      simp only [exec, Any] at h
      obtain ⟨u, hu, hrest⟩ := Option.bind_eq_some_iff.mp h
      simp only [collect, hu]
      rw [collect_append (hpart s a u hs hu), hout s a u hs hu, ih (hI s a u hs hu) hrest]

/-- **The measure rule.** If every step that meets the guard lowers a measure, no run is longer than the
    measure of its start. -/
theorem exec_bounded [∀ s a, Decidable (C s a)] {I : σ → Prop} {μ : σ → Nat}
    (hI : ∀ s a t, I s → C s a → step s a = some t → I t ∧ μ t < μ s) {as : List ι} {s t : σ} (hs : I s)
    (h : exec step C s as = some t) : as.length + μ t ≤ μ s := by
  induction as generalizing s with
  | nil =>
      simp only [exec, Option.some.injEq] at h
      simp [h]
  | cons a as ih =>
      simp only [exec] at h
      split at h
      · rename_i hC
        obtain ⟨u, hu, hrest⟩ := Option.bind_eq_some_iff.mp h
        have hstep := hI s a u hs hC hu
        have := ih hstep.1 hrest
        rw [List.length_cons]
        omega
      · exact absurd h (by simp)

/-- **The exhaustion rule.** Under such a measure some run comes to a state that no guarded step leaves. -/
theorem exec_exhaust [∀ s a, Decidable (C s a)] {I : σ → Prop} {μ : σ → Nat}
    (hI : ∀ s a t, I s → C s a → step s a = some t → I t ∧ μ t < μ s) {s : σ} (hs : I s) :
    ∃ as t, exec step C s as = some t ∧ I t ∧ ∀ a, C t a → step t a = none := by
  induction hn : μ s using Nat.strongRecOn generalizing s with
  | _ n ih =>
      by_cases hquiet : ∀ a, C s a → step s a = none
      · exact ⟨[], s, rfl, hs, hquiet⟩
      · simp only [Classical.not_forall] at hquiet
        obtain ⟨a, hC, hstep⟩ := hquiet
        obtain ⟨u, hu⟩ := Option.ne_none_iff_exists'.mp hstep
        obtain ⟨hIu, hlt⟩ := hI s a u hs hC hu
        obtain ⟨as, t, has, ht, hnone⟩ := ih (μ u) (hn ▸ hlt) hIu rfl
        refine ⟨a :: as, t, ?_, ht, hnone⟩
        rw [exec, if_pos hC, hu]
        exact has

/-- **The ledger rule.** Every step has a cost, and an invariant keeps the sum. Then a run ends with the
    sum unchanged iff it is a run of steps that cost nothing. -/
theorem exec_ledger {cost : σ → ι → Nat} {I : Nat → σ → Prop}
    (hI : ∀ n s a t, I n s → step s a = some t → I (n + cost s a) t) {as : List ι} {s t : σ} {n : Nat}
    (h : exec step Any s as = some t) (hs : I n s) :
    ∃ m, I m t ∧ n ≤ m ∧ (m = n ↔ exec step (fun s a => cost s a = 0) s as = some t) := by
  induction as generalizing s n with
  | nil =>
      simp only [exec, Option.some.injEq] at h
      exact ⟨n, h ▸ hs, Nat.le_refl n, by simp [exec, h]⟩
  | cons a as ih =>
      simp only [exec, Any] at h
      obtain ⟨u, hu, hrest⟩ := Option.bind_eq_some_iff.mp h
      obtain ⟨m, hm, hle, hiff⟩ := ih hrest (hI n s a u hs hu)
      refine ⟨m, hm, by omega, ?_⟩
      by_cases hfree : cost s a = 0
      · simp only [exec, if_pos hfree, hu, Option.bind_some, ← hiff]
        omega
      · simp only [exec, if_neg hfree, reduceCtorEq, iff_false]
        omega

end Lts
