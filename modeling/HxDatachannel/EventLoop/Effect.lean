import HxDatachannel.EventLoop.Defs

/-!
# `EventLoop.Effect` — what one step can do

`act` is an executable function with many branches. This file says once, as a relation with one named
case for each branch, what a step of a thread can do to the globals and to its stack (`Effect`,
`act_effect`), and lifts that to a step of the program (`step_cases`). Every invariant of the event loop
is derived from these cases; none unfolds `act` again.
-/

namespace HxDatachannel
namespace EventLoop

/-- A frame that uses a synchronisation object in its next step. -/
def Frame.uses : Frame → Bool
  | .locking _ _ => true
  | .release     => true
  | .poll        => true
  | _            => false

/-- Why an operation fails: its object is NULL, or a mutex that was freed while the thread waited. -/
def Missing (g : Globals) (f : Frame) : Prop :=
  g.callback_result_mutex = none ∨ g.callback_result_semaphore = none ∨
  ∃ s i m, f = .locking s (.waiting i) ∧ g.callback_result_mutex = some m ∧ m.id ≠ i

/-- `Effect g stack a g' stack'`: with `stack` in progress, `a` takes the globals from `g` to `g'` and
    the stack to `stack'`. -/
inductive Effect (g : Globals) : List Frame → Act → Globals → List Frame → Prop where
  | init {stack} (hfree : free stack) : Effect g stack .init g.init stack
  | finalize {stack} (hfree : free stack) : Effect g stack .finalize g.fini stack
  | create {stack} (hfree : free stack) : Effect g stack .create g.create stack
  | fire {stack c p} (hfree : free stack) (hp : c.post = some p) :
      Effect g stack (.fire c) g (.locking (.append p) .start :: stack)
  | drop {stack c} (hfree : free stack) (hp : c.post = none) : Effect g stack (.fire c) g stack
  | call {stack} (hfree : free stack) :
      Effect g stack .call g (.locking .popAnnouncement .start :: stack)
  | acquire {s rest m} (hm : g.callback_result_mutex = some m) :
      Effect g (.locking s .start :: rest) .acquire g (.locking s (.waiting m.id) :: rest)
  | obtain {s rest m} (hm : g.callback_result_mutex = some m) (hheld : m.held = false) :
      Effect g (.locking s (.waiting m.id) :: rest) .obtain
        { g with callback_result_mutex := some { m with held := true } } (.locking s .locked :: rest)
  | unlock {s rest m} (hm : g.callback_result_mutex = some m) :
      Effect g (.locking s .locked :: rest) .unlock
        { (s.run g).1 with callback_result_mutex := some { m with held := false } }
        ((s.run g).2 ++ rest)
  | release {rest n} (hs : g.callback_result_semaphore = some n) :
      Effect g (.release :: rest) .release
        { g with callback_result_semaphore := some (n + 1) } rest
  | exhausted {rest} (hs : g.callback_result_semaphore = some 0) :
      Effect g (.poll :: rest) .tryAcquire g rest
  | token {rest n} (hs : g.callback_result_semaphore = some (n + 1)) :
      Effect g (.poll :: rest) .tryAcquire { g with callback_result_semaphore := some n }
        (.locking .popResult .start :: rest)
  | dispatch {r rest} :
      Effect g (.popped r :: rest) .dispatch { g with dispatched := g.dispatched ++ [r] }
        (.handling r :: rest)
  | retAnnouncing {d rest} :
      Effect g (.announcing d :: rest) .ret g (.locking .popAnnouncement .start :: rest)
  | retHandling {r rest} : Effect g (.handling r :: rest) .ret g (.poll :: rest)
  | throw {f rest} (hopen : f.isOpen) : Effect g (f :: rest) .throw g rest
  | fault {f rest a} (ha : a ≠ .finalize) (huses : f.uses) (hmiss : Missing g f) :
      Effect g (f :: rest) a { g with fault := true } (f :: rest)

/-- What `fail` leaves is what `Effect.fault` says. -/
theorem effect_fail {g g' : Globals} {f : Frame} {rest stack' : List Frame} {a : Act} (ha : a ≠ .finalize)
    (huses : f.uses) (hmiss : Missing g f) (h : fail g (f :: rest) = some (g', stack')) :
    Effect g (f :: rest) a g' stack' := by
  obtain ⟨rfl, rfl⟩ := Prod.mk.inj (Option.some.inj h)
  exact .fault ha huses hmiss

/-- **Inversion.** Every step of a thread is one of the cases of `Effect`. -/
theorem act_effect {g g' : Globals} {stack stack' : List Frame} {a : Act}
    (h : act g stack a = some (g', stack')) : Effect g stack a g' stack' := by
  cases a with
  | init =>
      simp only [act, Option.ite_none_right_eq_some, Option.some.injEq, Prod.mk.injEq] at h
      obtain ⟨hfree, rfl, rfl⟩ := h
      exact .init hfree
  | finalize =>
      simp only [act, Option.ite_none_right_eq_some, Option.some.injEq, Prod.mk.injEq] at h
      obtain ⟨hfree, rfl, rfl⟩ := h
      exact .finalize hfree
  | create =>
      simp only [act, Option.ite_none_right_eq_some, Option.some.injEq, Prod.mk.injEq] at h
      obtain ⟨hfree, rfl, rfl⟩ := h
      exact .create hfree
  | fire c =>
      simp only [act, Option.ite_none_right_eq_some] at h
      obtain ⟨⟨hfree, -⟩, h⟩ := h
      split at h
      · rename_i p hp
        simp only [Option.some.injEq, Prod.mk.injEq] at h
        obtain ⟨rfl, rfl⟩ := h
        exact .fire hfree hp
      · rename_i hp
        simp only [Option.some.injEq, Prod.mk.injEq] at h
        obtain ⟨rfl, rfl⟩ := h
        exact .drop hfree hp
  | call =>
      simp only [act, Option.ite_none_right_eq_some, Option.some.injEq, Prod.mk.injEq] at h
      obtain ⟨hfree, rfl, rfl⟩ := h
      exact .call hfree
  | acquire =>
      simp only [act] at h
      split at h
      · split at h
        · rename_i m hm
          simp only [Option.some.injEq, Prod.mk.injEq] at h
          obtain ⟨rfl, rfl⟩ := h
          exact .acquire hm
        · rename_i hm
          exact effect_fail (by simp) rfl (.inl hm) h
      · exact absurd h (by simp)
  | obtain =>
      simp only [act] at h
      split at h
      · split at h
        · rename_i m hm
          split at h
          · rename_i hid
            exact effect_fail (by simp) rfl (.inr (.inr ⟨_, _, m, rfl, hm, hid⟩)) h
          · rename_i hid
            split at h
            · exact absurd h (by simp)
            · rename_i hheld
              simp only [Option.some.injEq, Prod.mk.injEq] at h
              obtain ⟨rfl, rfl⟩ := h
              obtain rfl := not_not.mp hid
              exact .obtain hm (by simpa using hheld)
        · rename_i hm
          exact effect_fail (by simp) rfl (.inl hm) h
      · exact absurd h (by simp)
  | unlock =>
      simp only [act] at h
      split at h
      · split at h
        · rename_i m hm
          simp only [Option.some.injEq, Prod.mk.injEq] at h
          obtain ⟨rfl, rfl⟩ := h
          exact .unlock hm
        · rename_i hm
          exact effect_fail (by simp) rfl (.inl hm) h
      · exact absurd h (by simp)
  | release =>
      simp only [act] at h
      split at h
      · split at h
        · rename_i n hs
          simp only [Option.some.injEq, Prod.mk.injEq] at h
          obtain ⟨rfl, rfl⟩ := h
          exact .release hs
        · rename_i hs
          exact effect_fail (by simp) rfl (.inr (.inl hs)) h
      · exact absurd h (by simp)
  | tryAcquire =>
      simp only [act] at h
      split at h
      · split at h
        · rename_i hs
          simp only [Option.some.injEq, Prod.mk.injEq] at h
          obtain ⟨rfl, rfl⟩ := h
          exact .exhausted hs
        · rename_i n hs
          simp only [Option.some.injEq, Prod.mk.injEq] at h
          obtain ⟨rfl, rfl⟩ := h
          exact .token hs
        · rename_i hs
          exact effect_fail (by simp) rfl (.inr (.inl hs)) h
      · exact absurd h (by simp)
  | dispatch =>
      simp only [act] at h
      split at h
      · simp only [Option.some.injEq, Prod.mk.injEq] at h
        obtain ⟨rfl, rfl⟩ := h
        exact .dispatch
      · exact absurd h (by simp)
  | ret =>
      simp only [act] at h
      split at h
      · simp only [Option.some.injEq, Prod.mk.injEq] at h
        obtain ⟨rfl, rfl⟩ := h
        exact .retAnnouncing
      · simp only [Option.some.injEq, Prod.mk.injEq] at h
        obtain ⟨rfl, rfl⟩ := h
        exact .retHandling
      · exact absurd h (by simp)
  | throw =>
      simp only [act] at h
      split at h
      · simp only [Option.ite_none_right_eq_some, Option.some.injEq, Prod.mk.injEq] at h
        obtain ⟨hopen, rfl, rfl⟩ := h
        exact .throw hopen
      · exact absurd h (by simp)

/-- A step of the program starts a thread, or is a step of one thread of a run without fault. -/
theorem step_cases {s t : State} {l : Label} (h : step s l = some t) :
    (l = .spawn ∧ t = { s with threads := s.threads ++ [[]] }) ∨
    ∃ i a stack g' stack', l = .step i a ∧ s.globals.fault = false ∧ s.threads[i]? = some stack ∧
      Effect s.globals stack a g' stack' ∧ t = ⟨g', s.threads.set i stack'⟩ := by
  cases l with
  | spawn =>
      simp only [step, Option.some.injEq] at h
      exact .inl ⟨rfl, h.symm⟩
  | step i a =>
      right
      simp only [step] at h
      split at h
      · exact absurd h (by simp)
      · rename_i hfault
        split at h
        · rename_i stack hstack
          obtain ⟨⟨g', stack'⟩, hact, rfl⟩ := Option.map_eq_some_iff.mp h
          exact ⟨i, a, stack, g', stack', rfl, by simpa using hfault, hstack, act_effect hact, rfl⟩
        · exact absurd h (by simp)

end EventLoop
end HxDatachannel
