import HxDatachannel.Lists.Defs

/-!
# `Lists.Ops` — what one operation does to one list

One specification for each operation, in terms of the contents of the list it works on: `append_spec`,
`pop_nil` and `pop_cons`, `free_of_heap`. Each says that the operation succeeds, what the two pointers
delimit after it, and what it leaves alone.
-/

namespace HxDatachannel
namespace Lists

open Linked

/-! ## What the accesses return -/

namespace Pointers

variable {s : Pointers} {l : Name} {a b : Addr} {n junk : Block}

@[simp] theorem write_heap : (s.write a n).heap = Function.update s.heap a (some n) := rfl
@[simp] theorem write_head : (s.write a n).head = s.head := rfl
@[simp] theorem write_last : (s.write a n).last = s.last := rfl
@[simp] theorem setHead_heap (p : Option Addr) : (s.setHead l p).heap = s.heap := rfl
@[simp] theorem setHead_head (p : Option Addr) : (s.setHead l p).head = Function.update s.head l p := rfl
@[simp] theorem setHead_last (p : Option Addr) : (s.setHead l p).last = s.last := rfl
@[simp] theorem setLast_heap (p : Option Addr) : (s.setLast l p).heap = s.heap := rfl
@[simp] theorem setLast_head (p : Option Addr) : (s.setLast l p).head = s.head := rfl
@[simp] theorem setLast_last (p : Option Addr) : (s.setLast l p).last = Function.update s.last l p := rfl

theorem node_of_heap (h : s.heap a = some n) (hl : listOf n.value = l) :
    s.node l (some a) = some (a, n) := by
  simp only [node, h]
  exact if_pos hl

theorem next_of_heap (h : s.heap a = some n) (hl : listOf n.value = l) :
    s.next l (some a) = some n.next := by
  rw [next, node_of_heap h hl]
  rfl

theorem setNext_of_heap (h : s.heap a = some n) (hl : listOf n.value = l) (q : Option Addr) :
    s.setNext l (some a) q = some (s.write a { n with next := q }) := by
  rw [setNext, node_of_heap h hl]
  rfl

theorem fill_of_heap (h : s.heap a = some n) (hl : listOf n.value = l) (x : Post) :
    s.fill l (some a) x = some (s.write a { n with value := x }) := by
  rw [fill, node_of_heap h hl]
  rfl

/-- The allocation for an empty list: both pointers go to the new node. -/
theorem alloc_empty (h : s.last l = none) (hj : listOf junk.value = l) :
    s.alloc l b junk = some (some b,
      ((((s.write b junk).setHead l (some b)).setLast l (some b)).write b ⟨none, junk.value⟩)) := by
  rw [alloc, if_pos h]
  simp only [setLast_last, Function.update_self]
  rw [setNext_of_heap (n := junk) (by simp) hj]
  simp

/-- The allocation for a list that ends in `a`: the new node is linked behind it. -/
theorem alloc_linked (h : s.last l = some a) (ha : s.heap a = some n) (hn : listOf n.value = l)
    (hab : a ≠ b) (hj : listOf junk.value = l) :
    s.alloc l b junk = some (some b,
      ((((s.write b junk).write a ⟨some b, n.value⟩).setLast l (some b)).write b ⟨none, junk.value⟩)) := by
  rw [alloc, if_neg (by rw [h]; simp)]
  simp only [h]
  rw [setNext_of_heap (n := n) (by simp [hab, ha]) hn]
  simp only [Option.bind_eq_bind, Option.bind_some, write_last, h]
  rw [next_of_heap (n := ⟨some b, n.value⟩) (by simp) hn]
  simp only [Option.bind_some, setLast_last, Function.update_self]
  rw [setNext_of_heap (n := junk) (by simp [hab.symm]) hj]
  simp

/-- `append` is the allocation, then the assignments to the fields. -/
theorem append_eq (s : Pointers) (b : Addr) (junk : Block) (x : Post) :
    s.append b junk x = (s.alloc (listOf x) b junk).bind fun out => out.2.fill (listOf x) out.1 x := by
  cases x <;> rfl

/-! ## What the operations do to a list -/

/-- **Append.** The new node is behind the others; the other list's pointers and the memory outside this
    list are as before. -/
theorem append_spec {x : Post} {c : List (Addr × Post)}
    (h : Queue s.heap (s.head (listOf x)) (s.last (listOf x)) c) (hc : ∀ n ∈ c, listOf n.2 = listOf x)
    (hb : s.heap b = none) (hj : listOf junk.value = listOf x) :
    ∃ t, s.append b junk x = some t ∧
      Queue t.heap (t.head (listOf x)) (t.last (listOf x)) (c ++ [(b, x)]) ∧
      (∀ l, l ≠ listOf x → t.head l = s.head l ∧ t.last l = s.last l) ∧
      ∀ a, a ∉ addrs c → a ≠ b → t.heap a = s.heap a := by
  cases hlast : s.last (listOf x) with
  | none =>
      obtain rfl := h.last_null.mp hlast
      rw [append_eq, alloc_empty hlast hj, Option.bind_some,
        fill_of_heap (n := ⟨none, junk.value⟩) (by simp) hj]
      refine ⟨_, rfl, ?_, ?_, ?_⟩
      · simpa using Queue.push_empty (by simp)
      · intro l hl
        simp [hl]
      · intro a _ hab
        simp [hab]
  | some a =>
      rw [hlast] at h
      obtain ⟨c', y, rfl, ha⟩ := h.last_node
      have hy : (a, y) ∈ c' ++ [(a, y)] := by simp
      have hab : a ≠ b := by
        rintro rfl
        exact absurd (ha.symm.trans hb) (by simp)
      rw [append_eq, alloc_linked hlast ha (hc _ hy) hab hj, Option.bind_some,
        fill_of_heap (n := ⟨none, junk.value⟩) (by simp) hj]
      refine ⟨_, rfl, ?_, ?_, ?_⟩
      · simp only [write_last, setLast_last, Function.update_self]
        refine h.push ha ?_ (by simp [hab]) (by simp)
        intro d hd hda
        have hdb : d ≠ b := by
          rintro rfl
          obtain ⟨n, hn, hnd⟩ := List.mem_map.mp hd
          obtain ⟨r, hr⟩ := h.chain.mem hn
          exact absurd ((hnd ▸ hr).symm.trans hb) (by simp)
        simp [hda, hdb]
      · intro l hl
        simp [hl]
      · intro d hd hdb
        have hda : d ≠ a := by
          rintro rfl
          exact hd (mem_addrs hy)
        simp [hda, hdb]

theorem pop_nil (h : Queue s.heap (s.head l) (s.last l) []) : s.pop l = some (none, s) :=
  if_pos h.chain

/-- **Pop.** The first node is returned and its list goes on behind it; the memory and the other list's
    pointers are as before. -/
theorem pop_cons {m : Addr × Post} {c : List (Addr × Post)}
    (h : Queue s.heap (s.head l) (s.last l) (m :: c)) (hm : listOf m.2 = l) :
    ∃ t, s.pop l = some (some m.1, t) ∧ t.heap = s.heap ∧ Queue t.heap (t.head l) (t.last l) c ∧
      ∀ l', l' ≠ l → t.head l' = s.head l' ∧ t.last l' = s.last l' := by
  obtain ⟨r, hfirst, hnode, hrest⟩ := h.pop
  rw [pop, if_neg (by rw [hfirst]; simp), hfirst, next_of_heap hnode hm]
  simp only [Option.bind_eq_bind, Option.bind_some, setHead_head, Function.update_self]
  refine ⟨_, rfl, ?_, ?_, ?_⟩
  · split <;> rfl
  · by_cases hr : r = none
    · rw [if_pos hr] at hrest ⊢
      simpa using hrest
    · rw [if_neg hr] at hrest ⊢
      simpa using hrest
  · intro l' hl
    split <;> simp [hl]

theorem free_of_heap (h : s.heap a = some n) :
    s.free a = some { s with heap := Function.update s.heap a none } := by
  rw [free, h]

end Pointers

end Lists
end HxDatachannel
