import HxDatachannel.Base.Lts
import HxDatachannel.Lists.Ops

/-!
# `Lists.Shape` — the pointers always delimit two first-in first-out queues

The shape of the heap in every reachable state (`Shape`): each list is a chain of nodes from its first
pointer to its last one, the nodes in hand lie outside both chains, nothing else is allocated, and what was
popped, then what is in the chain, is what was appended. Each act is allowed by the shape, and takes it to
the shape with the contents a queue would have (`append_shape`, `pop_nil_shape`, `pop_cons_shape`,
`free_shape`).
-/

namespace HxDatachannel
namespace Lists

open Linked Lts

/-! ## The shape of the heap -/

/-- The nodes of each list, as the heap has them. -/
abbrev Contents := Name → List (Addr × Post)

structure Shape (s : State) (c : Contents) : Prop where
  queue : ∀ l, Queue s.mem.heap (s.mem.head l) (s.mem.last l) (c l)
  typed : ∀ l, ∀ n ∈ c l, listOf n.2 = l
  /-- A popped node keeps its fields until it is freed. -/
  hand : ∀ n ∈ s.hand, ∃ r, s.mem.heap n.1 = some ⟨r, n.2⟩
  apart : ∀ l, ∀ a ∈ addrs (c l), a ∉ addrs s.hand
  /-- Every allocated node can still be reached. -/
  covered : ∀ a, s.mem.heap a ≠ none → a ∈ addrs s.hand ∨ ∃ l, a ∈ addrs (c l)
  history : ∀ l, s.popped l ++ c l = s.appended l
  sound : s.fault = false

theorem shape_blank : Shape .blank fun _ => [] :=
  { queue := fun _ => .empty
    typed := fun _ _ hn => absurd hn List.not_mem_nil
    hand := fun _ hn => absurd hn List.not_mem_nil
    apart := fun _ _ ha => absurd ha List.not_mem_nil
    covered := fun _ ha => absurd rfl ha
    history := fun _ => rfl
    sound := rfl }

namespace Shape

variable {s : State} {c : Contents}

/-- What a list passes is allocated. -/
theorem allocated (h : Shape s c) {l : Name} {a : Addr} (ha : a ∈ addrs (c l)) :
    ∃ r x, (a, x) ∈ c l ∧ s.mem.heap a = some ⟨r, x⟩ := by
  obtain ⟨⟨b, x⟩, hn, rfl⟩ := List.mem_map.mp ha
  obtain ⟨r, hr⟩ := (h.queue l).chain.mem hn
  exact ⟨r, x, hn, hr⟩

/-- What is not allocated is in neither list and not in hand. -/
theorem not_mem_of_free (h : Shape s c) {b : Addr} (hb : s.mem.heap b = none) :
    (∀ l, b ∉ addrs (c l)) ∧ b ∉ addrs s.hand := by
  constructor
  · intro l hmem
    obtain ⟨r, x, -, hr⟩ := h.allocated hmem
    exact absurd (hr.symm.trans hb) (by simp)
  · intro hmem
    obtain ⟨n, hn, rfl⟩ := List.mem_map.mp hmem
    obtain ⟨r, hr⟩ := h.hand n hn
    exact absurd (hr.symm.trans hb) (by simp)

/-- The two lists share no node: a node has one type. -/
theorem disjoint (h : Shape s c) {l l' : Name} (hl : l' ≠ l) {a : Addr} (ha : a ∈ addrs (c l')) :
    a ∉ addrs (c l) := by
  intro ha'
  obtain ⟨r, x, hx, hr⟩ := h.allocated ha
  obtain ⟨r', x', hx', hr'⟩ := h.allocated ha'
  obtain ⟨-, rfl⟩ := Node.mk.inj (Option.some.inj (hr.symm.trans hr'))
  exact hl ((h.typed l' _ hx).symm.trans (h.typed l _ hx'))

end Shape

/-- **Append.** The address `malloc` returned is behind the others in its list. -/
theorem append_shape {s : State} {c : Contents} {b : Addr} {junk : Block} {x : Post} (h : Shape s c)
    (hb : s.mem.heap b = none) (hj : listOf junk.value = listOf x) :
    ∃ t, step s (.append b junk x) = some t ∧
      Shape t (Function.update c (listOf x) (c (listOf x) ++ [(b, x)])) := by
  obtain ⟨m, hm, hqueue, hother, hframe⟩ :=
    Pointers.append_spec (h.queue (listOf x)) (h.typed (listOf x)) hb hj
  obtain ⟨hfresh, hhand⟩ := h.not_mem_of_free hb
  refine ⟨{ s with
    mem := m
    appended := fun l => s.appended l ++ ((Act.append b junk x).appends l).toList }, ?_, ?_⟩
  · rw [step, if_pos ⟨h.sound, hb, hj⟩, hm]
    rfl
  constructor
  case queue =>
    refine (Function.forall_update_iff c fun l nodes => Queue m.heap (m.head l) (m.last l) nodes).mpr ?_
    refine ⟨hqueue, ?_⟩
    intro l hl
    obtain ⟨hh, ht⟩ := hother l hl
    rw [hh, ht]
    refine (h.queue l).congr ?_
    intro a ha
    refine hframe a (h.disjoint hl ha) ?_
    rintro rfl
    exact hfresh l ha
  case typed =>
    refine (Function.forall_update_iff c fun l nodes => ∀ n ∈ nodes, listOf n.2 = l).mpr ?_
    refine ⟨?_, fun l _ => h.typed l⟩
    intro n hn
    rcases List.mem_append.mp hn with hn | hn
    · exact h.typed _ n hn
    · rw [List.mem_singleton.mp hn]
  case hand =>
    intro n hn
    obtain ⟨r, hr⟩ := h.hand n hn
    refine ⟨r, (hframe n.1 ?_ ?_).trans hr⟩
    · intro hmem
      exact h.apart _ _ hmem (mem_addrs hn)
    · rintro rfl
      exact hhand (mem_addrs hn)
  case apart =>
    refine (Function.forall_update_iff c fun _ nodes => ∀ a ∈ addrs nodes, a ∉ addrs s.hand).mpr ?_
    refine ⟨?_, fun l _ => h.apart l⟩
    intro a ha
    rw [addrs_append] at ha
    rcases List.mem_append.mp ha with ha | ha
    · exact h.apart _ a ha
    · rw [List.mem_singleton.mp ha]
      exact hhand
  case covered =>
    intro a ha
    by_cases hmem : a ∈ addrs (c (listOf x) ++ [(b, x)])
    · exact Or.inr ⟨listOf x, by rwa [Function.update_self]⟩
    · simp only [addrs_append, List.mem_append, not_or] at hmem
      have hold : s.mem.heap a ≠ none := by
        rw [← hframe a hmem.1 (fun hab => hmem.2 (by simp [hab]))]
        exact ha
      rcases h.covered a hold with hc | ⟨l, hc⟩
      · exact Or.inl hc
      · refine Or.inr ⟨l, ?_⟩
        rw [Function.update_of_ne]
        · exact hc
        · rintro rfl
          exact hmem.1 hc
  case history =>
    refine (Function.forall_update_iff c fun l nodes =>
      s.popped l ++ nodes = s.appended l ++ ((Act.append b junk x).appends l).toList).mpr ⟨?_, ?_⟩
    · rw [← List.append_assoc, h.history, Act.appends, if_pos rfl]
      rfl
    · intro l hl
      rw [h.history, Act.appends, if_neg hl.symm]
      exact (List.append_nil _).symm
  case sound => exact h.sound

/-- **Pop.** From an empty list nothing is taken. -/
theorem pop_nil_shape {s : State} {c : Contents} {l : Name} (h : Shape s c) (hl : c l = []) :
    step s (.pop l) = some s := by
  have hpop : s.mem.pop l = some (none, s.mem) := Pointers.pop_nil (hl ▸ h.queue l)
  simp only [step, if_pos h.sound, hpop]

/-- **Pop.** Otherwise the first node goes from the list to the hand. -/
theorem pop_cons_shape {s : State} {c : Contents} {l : Name} {n : Addr × Post}
    {rest : List (Addr × Post)} (h : Shape s c) (hl : c l = n :: rest) :
    ∃ t, step s (.pop l) = some t ∧ Shape t (Function.update c l rest) ∧ t.hand = n :: s.hand := by
  have hfirst : n ∈ c l := by
    rw [hl]
    exact List.mem_cons_self
  have hrest : ∀ n' ∈ rest, n' ∈ c l := by
    intro n' hn'
    rw [hl]
    exact List.mem_cons_of_mem _ hn'
  have hnd : n.1 ∉ addrs rest := by
    have hnodup := (h.queue l).chain.nodup
    rw [hl] at hnodup
    exact (List.nodup_cons.mp hnodup).1
  have hn : listOf n.2 = l := h.typed l n hfirst
  obtain ⟨m, hm, hheap, hqueue, hother⟩ := Pointers.pop_cons (hl ▸ h.queue l) hn
  obtain ⟨r, hr⟩ := (h.queue l).chain.mem hfirst
  have hnode : m.node l (some n.1) = some (n.1, ⟨r, n.2⟩) := Pointers.node_of_heap (hheap ▸ hr) hn
  refine ⟨{ s with
    mem := m
    popped := Function.update s.popped l (s.popped l ++ [n])
    hand := n :: s.hand }, ?_, ?_, rfl⟩
  · simp only [step, if_pos h.sound, hm, hnode]
  constructor
  case queue =>
    refine (Function.forall_update_iff c fun l nodes => Queue m.heap (m.head l) (m.last l) nodes).mpr ?_
    refine ⟨hqueue, ?_⟩
    intro l' hl'
    obtain ⟨hh, ht⟩ := hother l' hl'
    rw [hheap, hh, ht]
    exact h.queue l'
  case typed =>
    refine (Function.forall_update_iff c fun l nodes => ∀ n ∈ nodes, listOf n.2 = l).mpr ?_
    refine ⟨?_, fun l' _ => h.typed l'⟩
    intro n' hn'
    exact h.typed l n' (hrest n' hn')
  case hand =>
    intro n' hn'
    show ∃ r, m.heap n'.1 = some ⟨r, n'.2⟩
    rw [hheap]
    rcases List.mem_cons.mp hn' with rfl | hn'
    · exact ⟨r, hr⟩
    · exact h.hand n' hn'
  case apart =>
    refine (Function.forall_update_iff c fun _ nodes => ∀ a ∈ addrs nodes, a ∉ addrs (n :: s.hand)).mpr ?_
    constructor
    · intro a ha
      obtain ⟨n', hn', rfl⟩ := List.mem_map.mp ha
      refine List.not_mem_cons_of_ne_of_not_mem ?_ (h.apart l _ (mem_addrs (hrest n' hn')))
      intro heq
      exact hnd (heq ▸ ha)
    · intro l' hl' a ha
      refine List.not_mem_cons_of_ne_of_not_mem ?_ (h.apart l' a ha)
      rintro rfl
      exact h.disjoint hl' ha (mem_addrs hfirst)
  case covered =>
    intro a ha
    rcases h.covered a (hheap ▸ ha) with hc | ⟨l', hc⟩
    · exact Or.inl (List.mem_cons_of_mem _ hc)
    · by_cases hl' : l' = l
      · subst hl'
        rw [hl] at hc
        rcases List.mem_cons.mp hc with rfl | hc
        · exact Or.inl List.mem_cons_self
        · exact Or.inr ⟨l', by rwa [Function.update_self]⟩
      · exact Or.inr ⟨l', by rwa [Function.update_of_ne hl']⟩
  case history =>
    refine (Function.forall_update_iff c fun l' nodes =>
      Function.update s.popped l (s.popped l ++ [n]) l' ++ nodes = s.appended l').mpr ⟨?_, ?_⟩
    · rw [Function.update_self, ← h.history l, hl, List.append_assoc, List.singleton_append]
    · intro l' hl'
      rw [Function.update_of_ne hl']
      exact h.history l'
  case sound => exact h.sound

/-- **Free.** A node in hand can be freed, and the lists do not notice. -/
theorem free_shape {s : State} {c : Contents} {a : Addr} (h : Shape s c) (ha : a ∈ addrs s.hand) :
    ∃ t, step s (.free a) = some t ∧ Shape t c := by
  obtain ⟨n, hn, hna⟩ := List.mem_map.mp ha
  obtain ⟨r, hr⟩ := h.hand n hn
  refine ⟨{ s with
    mem := { s.mem with heap := Function.update s.mem.heap a none }
    hand := s.hand.filter fun n => n.1 ≠ a }, ?_, ?_⟩
  · rw [step, if_pos ⟨h.sound, ha⟩, Pointers.free_of_heap (hna ▸ hr)]
    rfl
  constructor
  case queue =>
    intro l
    refine (h.queue l).congr ?_
    intro d hd
    refine Function.update_of_ne ?_ _ _
    rintro rfl
    exact h.apart l d hd ha
  case typed => exact h.typed
  case hand =>
    intro n' hn'
    obtain ⟨hn', hne⟩ := List.mem_filter.mp hn'
    obtain ⟨r', hr'⟩ := h.hand n' hn'
    exact ⟨r', (Function.update_of_ne (of_decide_eq_true hne) _ _).trans hr'⟩
  case apart =>
    intro l d hd hmem
    obtain ⟨n', hn', rfl⟩ := List.mem_map.mp hmem
    exact h.apart l _ hd (mem_addrs (List.mem_filter.mp hn').1)
  case covered =>
    intro d hd
    have hda : d ≠ a := by
      rintro rfl
      simp at hd
    have hold : s.mem.heap d ≠ none := by
      simpa [hda] using hd
    rcases h.covered d hold with hc | hc
    · obtain ⟨n', hn', rfl⟩ := List.mem_map.mp hc
      exact Or.inl (mem_addrs (List.mem_filter.mpr ⟨hn', decide_eq_true hda⟩))
    · exact Or.inr hc
  case history => exact h.history
  case sound => exact h.sound

/-! ## Runs -/

/-- What an act makes of the contents: it queues behind the others, or takes the first. -/
def Contents.after (c : Contents) : Act → Contents
  | .append b _ x => Function.update c (listOf x) (c (listOf x) ++ [(b, x)])
  | .pop l        => Function.update c l (c l).tail
  | .free _       => c

/-- **Every act keeps the shape.** -/
theorem step_shape {s t : State} {c : Contents} {a : Act} (h : Shape s c) (hstep : step s a = some t) :
    Shape t (c.after a) := by
  cases a with
  | append b junk x =>
      obtain ⟨⟨-, hb, hj⟩, -⟩ := Option.ite_none_right_eq_some.mp hstep
      obtain ⟨u, hu, hshape⟩ := append_shape h hb hj
      obtain rfl := Option.some.inj (hu.symm.trans hstep)
      exact hshape
  | pop l =>
      cases hl : c l with
      | nil =>
          obtain rfl := Option.some.inj ((pop_nil_shape h hl).symm.trans hstep)
          have hsame : c.after (.pop l) = c := by
            rw [Contents.after, hl]
            exact Function.update_eq_self_iff.mpr hl.symm
          rw [hsame]
          exact h
      | cons n rest =>
          obtain ⟨u, hu, hshape, -⟩ := pop_cons_shape h hl
          obtain rfl := Option.some.inj (hu.symm.trans hstep)
          rw [Contents.after, hl]
          exact hshape
  | free a =>
      obtain ⟨⟨-, ha⟩, -⟩ := Option.ite_none_right_eq_some.mp hstep
      obtain ⟨u, hu, hshape⟩ := free_shape h ha
      obtain rfl := Option.some.inj (hu.symm.trans hstep)
      exact hshape

theorem path_shape {C : State → Act → Prop} {s : State} (h : Path step C .blank s) : ∃ c, Shape s c := by
  refine h.invariant (I := fun s => ∃ c, Shape s c) ?_ ⟨_, shape_blank⟩
  rintro s a t ⟨c, hc⟩ - hstep
  exact ⟨c.after a, step_shape hc hstep⟩

/-- The log of appends is what the acts say. -/
theorem step_appended (l : Name) (s : State) (a : Act) (t : State) (h : step s a = some t) :
    t.appended l = s.appended l ++ (a.appends l).toList := by
  cases a with
  | append b junk x =>
      obtain ⟨-, ht⟩ := Option.ite_none_right_eq_some.mp h
      rw [← Option.some.inj ht]
  | pop l' =>
      show t.appended l = s.appended l ++ []
      rw [List.append_nil]
      obtain ⟨-, ht⟩ := Option.ite_none_right_eq_some.mp h
      split at ht
      · rw [← Option.some.inj ht]
      · rw [← Option.some.inj ht]
      · split at ht <;> rw [← Option.some.inj ht]
  | free a =>
      show t.appended l = s.appended l ++ []
      rw [List.append_nil]
      obtain ⟨-, ht⟩ := Option.ite_none_right_eq_some.mp h
      rw [← Option.some.inj ht]
      cases s.mem.free a <;> rfl

/-- **The pointers refine queues.** After any run, no operation has gone through a dangling pointer, and
    for both lists: the two pointers are NULL together; following `next` from the first one passes
    distinct, allocated nodes up to the one the last pointer points to, whose `next` is NULL; and the nodes
    popped, then the nodes passed, are the nodes appended, in order. -/
theorem pointers_refine_queues {as : List Act} {s : State} (h : exec step Any .blank as = some s) :
    s.fault = false ∧ ∀ l,
      (s.mem.head l = none ↔ s.mem.last l = none) ∧
      ∃ nodes, Seg s.mem.heap (s.mem.head l) nodes none ∧ (addrs nodes).Nodup ∧
        (∀ a ∈ addrs nodes, s.mem.heap a ≠ none) ∧
        (∀ a, s.mem.last l = some a →
          ∃ l' x, nodes = l' ++ [(a, x)] ∧ s.mem.heap a = some ⟨none, x⟩) ∧
        s.popped l ++ nodes = as.filterMap (Act.appends l) := by
  obtain ⟨c, hc⟩ := path_shape (Path.of_exec h)
  refine ⟨hc.sound, ?_⟩
  intro l
  have hq := hc.queue l
  refine ⟨hq.null_iff, c l, hq.chain, hq.chain.nodup, ?_, ?_, ?_⟩
  · intro a ha
    obtain ⟨r, x, -, hr⟩ := hc.allocated ha
    rw [hr]
    exact Option.some_ne_none _
  · intro a ha
    exact (ha ▸ hq).last_node
  · rw [hc.history l]
    exact exec_log (L := fun s => s.appended l) (step_appended l) h

/-- Two results and a channel; the first node is popped, freed, and its address given out again. -/
def recycled : List Act :=
  [.append 0 ⟨some 9, .result (closedCallback 0)⟩ (.result (closedCallback 1)),
   .append 1 ⟨some 0, .announcement ⟨0, 0⟩⟩ (.announcement ⟨5, 1⟩),
   .append 2 ⟨none, .result (closedCallback 0)⟩ (.result (closedCallback 2)),
   .pop .callback_results, .free 0,
   .append 0 ⟨some 2, .result (closedCallback 0)⟩ (.result (closedCallback 3)),
   .pop .datachannel_callbacks, .pop .datachannel_callbacks]

theorem pointers_refine_queues_recycled : ∃ s nodes, exec step Any .blank recycled = some s ∧
    s.mem.last .callback_results = some 0 ∧ s.mem.head .datachannel_callbacks = none ∧
    Seg s.mem.heap (some 2) nodes none ∧
    s.popped .callback_results ++ nodes = recycled.filterMap (Act.appends .callback_results) := by
  have hrun : exec step Any .blank recycled = some _ := rfl
  obtain ⟨nodes, hseg, -, -, -, hnodes⟩ := ((pointers_refine_queues hrun).2 .callback_results).2
  exact ⟨_, nodes, hrun, rfl, rfl, hseg, hnodes⟩

end Lists
end HxDatachannel
