import Mathlib.Logic.Function.Basic
import Mathlib.Data.List.Nodup

/-!
# `Base.Linked` — a queue kept as a linked list by two pointers

A memory maps addresses to nodes, a node is its `next` pointer with its contents, and NULL is `none`.
Everything here is parametric in the addresses and the contents.

## Contents
- **Segments.** `Seg m p l q`: following `next` from `p` passes the nodes `l` in order and arrives at `q`.
  A segment that ends in NULL is determined by the memory and `p` (`Seg.unique`), so it passes no address
  twice (`Seg.nodup`).
- **Queues.** `Queue m first last l`: the two pointers delimit the list `l`. It survives changes elsewhere
  in memory (`Queue.congr`), a node linked behind the last one (`Queue.push`, `Queue.push_empty`), and the
  first one being unlinked (`Queue.pop`).
-/

namespace Linked

variable {ι α : Type}

/-- A node: the pointer to the next one, and what it holds. -/
structure Node (ι α : Type) where
  next  : Option ι
  value : α
deriving DecidableEq, Repr

/-- Following `next` from `p` passes the nodes of the list, each with its address, and arrives at `q`. -/
def Seg (m : ι → Option (Node ι α)) : Option ι → List (ι × α) → Option ι → Prop
  | p, [], q          => p = q
  | p, (a, x) :: l, q => p = some a ∧ ∃ r, m a = some ⟨r, x⟩ ∧ Seg m r l q

/-- The addresses of a list of nodes. -/
def addrs (l : List (ι × α)) : List ι := l.map Prod.fst

@[simp] theorem addrs_nil : addrs ([] : List (ι × α)) = [] := rfl
@[simp] theorem addrs_cons (n : ι × α) (l : List (ι × α)) : addrs (n :: l) = n.1 :: addrs l := rfl

@[simp] theorem addrs_append (l l' : List (ι × α)) : addrs (l ++ l') = addrs l ++ addrs l' :=
  List.map_append

theorem mem_addrs {n : ι × α} {l : List (ι × α)} (h : n ∈ l) : n.1 ∈ addrs l :=
  List.mem_map_of_mem h

variable {m m' : ι → Option (Node ι α)}

/-! ## Segments -/

namespace Seg

theorem append {l l' : List (ι × α)} {p q r : Option ι} (h : Seg m p l q) (h' : Seg m q l' r) :
    Seg m p (l ++ l') r := by
  induction l generalizing p with
  | nil => exact h ▸ h'
  | cons n l ih =>
      obtain ⟨hp, s, hm, hl⟩ := h
      exact ⟨hp, s, hm, ih hl⟩

theorem split {l l' : List (ι × α)} {p r : Option ι} (h : Seg m p (l ++ l') r) :
    ∃ q, Seg m p l q ∧ Seg m q l' r := by
  induction l generalizing p with
  | nil => exact ⟨p, rfl, h⟩
  | cons n l ih =>
      obtain ⟨hp, s, hm, hl⟩ := h
      obtain ⟨q, hq, hq'⟩ := ih hl
      exact ⟨q, ⟨hp, s, hm, hq⟩, hq'⟩

/-- What a segment passes is in memory. -/
theorem mem {l : List (ι × α)} {p q : Option ι} {n : ι × α} (h : Seg m p l q) (hn : n ∈ l) :
    ∃ r, m n.1 = some ⟨r, n.2⟩ := by
  induction l generalizing p with
  | nil => exact absurd hn List.not_mem_nil
  | cons n' l ih =>
      obtain ⟨-, s, hm, hl⟩ := h
      rcases List.mem_cons.mp hn with rfl | hn
      · exact ⟨s, hm⟩
      · exact ih hl hn

/-- **Frame.** A segment depends on the memory at its own addresses only. -/
theorem congr {l : List (ι × α)} {p q : Option ι} (h : Seg m p l q)
    (hm : ∀ a ∈ addrs l, m' a = m a) : Seg m' p l q := by
  induction l generalizing p with
  | nil => exact h
  | cons n l ih =>
      obtain ⟨hp, s, hn, hl⟩ := h
      refine ⟨hp, s, (hm n.1 List.mem_cons_self).trans hn, ih hl ?_⟩
      intro a ha
      exact hm a (List.mem_cons_of_mem _ ha)

/-- The memory and the pointer determine a segment that ends in NULL. -/
theorem unique {l l' : List (ι × α)} {p : Option ι} (h : Seg m p l none) (h' : Seg m p l' none) :
    l = l' := by
  induction l generalizing p l' with
  | nil =>
      cases l' with
      | nil => rfl
      | cons n' l' => exact absurd (h.symm.trans h'.1) (by simp)
  | cons n l ih =>
      obtain ⟨rfl, r, hm, hl⟩ := h
      cases l' with
      | nil => exact absurd h' (by simp [Seg])
      | cons n' l' =>
          obtain ⟨hp, r', hm', hl'⟩ := h'
          have ha : n.1 = n'.1 := Option.some.inj hp
          have hnode := Option.some.inj (hm.symm.trans (ha ▸ hm'))
          obtain ⟨rfl, hx⟩ := Node.mk.inj hnode
          rw [Prod.ext ha hx, ih hl hl']

/-- **No address is passed twice**: the rest of the segment from the second visit would be the rest from
    the first, and it is shorter. -/
theorem nodup {l : List (ι × α)} {p : Option ι} (h : Seg m p l none) : (addrs l).Nodup := by
  induction l generalizing p with
  | nil => exact List.nodup_nil
  | cons n l ih =>
      obtain ⟨rfl, r, hm, hl⟩ := h
      refine List.nodup_cons.mpr ⟨?_, ih hl⟩
      intro hmem
      obtain ⟨n', hn', ha⟩ := List.mem_map.mp hmem
      obtain ⟨l₁, l₂, rfl⟩ := List.append_of_mem hn'
      obtain ⟨q, -, hq⟩ := hl.split
      have hfirst : Seg m (some n.1) (n :: (l₁ ++ n' :: l₂)) none := ⟨rfl, r, hm, hl⟩
      have hsecond : Seg m (some n.1) (n' :: l₂) none := by
        obtain rfl := hq.1
        exact ha ▸ hq
      have hlen := congrArg List.length (unique hfirst hsecond)
      simp at hlen
      omega

end Seg

/-! ## Queues -/

/-- The list `l` between the pointer to its first and the pointer to its last node. -/
structure Queue (m : ι → Option (Node ι α)) (first last : Option ι) (l : List (ι × α)) : Prop where
  chain : Seg m first l none
  last_eq : last = (addrs l).getLast?

namespace Queue

variable {first last : Option ι} {l : List (ι × α)}

theorem empty : Queue m none none [] := ⟨rfl, rfl⟩

theorem congr (h : Queue m first last l) (hm : ∀ a ∈ addrs l, m' a = m a) : Queue m' first last l :=
  ⟨h.chain.congr hm, h.last_eq⟩

theorem first_null (h : Queue m first last l) : first = none ↔ l = [] := by
  cases l with
  | nil => exact ⟨fun _ => rfl, fun _ => h.chain⟩
  | cons n l => exact ⟨fun hf => absurd (hf.symm.trans h.chain.1) (by simp), fun hl => absurd hl (by simp)⟩

theorem last_null (h : Queue m first last l) : last = none ↔ l = [] := by
  rw [h.last_eq, List.getLast?_eq_none_iff, addrs, List.map_eq_nil_iff]

/-- **The two pointers are NULL together.** -/
theorem null_iff (h : Queue m first last l) : first = none ↔ last = none :=
  h.first_null.trans h.last_null.symm

/-- A queue whose last pointer is not NULL ends in the node this points to. -/
theorem snoc {a : ι} (h : Queue m first (some a) l) : ∃ l' x, l = l' ++ [(a, x)] := by
  rcases List.eq_nil_or_concat l with rfl | ⟨l', ⟨b, x⟩, rfl⟩
  · exact absurd h.last_eq (by simp)
  · have hlast := h.last_eq
    simp at hlast
    exact ⟨l', x, by rw [hlast, List.concat_eq_append]⟩

/-- **The last node's `next` is NULL.** -/
theorem last_node {a : ι} (h : Queue m first (some a) l) :
    ∃ l' x, l = l' ++ [(a, x)] ∧ m a = some ⟨none, x⟩ := by
  obtain ⟨l', x, rfl⟩ := h.snoc
  obtain ⟨q, -, -, r, hm, hr⟩ := h.chain.split
  exact ⟨l', x, rfl, hr ▸ hm⟩

/-- A first node in both pointers. -/
theorem push_empty {b : ι} {y : α} (hb : m b = some ⟨none, y⟩) :
    Queue m (some b) (some b) [(b, y)] :=
  ⟨⟨rfl, none, hb, rfl⟩, rfl⟩

/-- **Push.** A node that was outside the list is linked behind the last one. -/
theorem push {a b : ι} {x y : α} (h : Queue m first (some a) l) (hx : m a = some ⟨none, x⟩)
    (hm : ∀ c ∈ addrs l, c ≠ a → m' c = m c) (ha' : m' a = some ⟨some b, x⟩)
    (hb' : m' b = some ⟨none, y⟩) : Queue m' first (some b) (l ++ [(b, y)]) := by
  obtain ⟨l', x', rfl⟩ := h.snoc
  obtain ⟨q, hl', rfl, r, hr, -⟩ := h.chain.split
  obtain ⟨-, rfl⟩ := Node.mk.inj (Option.some.inj (hr.symm.trans hx))
  have hnd := h.chain.nodup
  rw [addrs_append] at hnd
  have hpre : Seg m' first l' (some a) := by
    refine hl'.congr ?_
    intro c hc
    refine hm c (by rw [addrs_append]; exact List.mem_append_left _ hc) ?_
    rintro rfl
    exact (List.nodup_append.mp hnd).2.2 c hc c (by simp) rfl
  have hlink : Seg m' (some a) [(a, x')] (some b) := ⟨rfl, some b, ha', rfl⟩
  have hnew : Seg m' (some b) [(b, y)] none := ⟨rfl, none, hb', rfl⟩
  exact ⟨(hpre.append hlink).append hnew, by simp⟩

/-- **Pop.** The first node of a list is in memory, and the list from its `next` is delimited by that
    pointer and by the last one, which is reset when nothing is left. -/
theorem pop {n : ι × α} (h : Queue m first last (n :: l)) :
    ∃ r, first = some n.1 ∧ m n.1 = some ⟨r, n.2⟩ ∧ Queue m r (if r = none then none else last) l := by
  obtain ⟨hf, r, hm, hl⟩ := h.chain
  refine ⟨r, hf, hm, hl, ?_⟩
  cases l with
  | nil =>
      obtain rfl := hl
      rfl
  | cons n' l =>
      rw [if_neg (by rw [hl.1]; simp), h.last_eq]
      simp

end Queue
end Linked
