import Mathlib.Data.Set.Finite.Basic
import Mathlib.Data.Fintype.EquivFin
import HxDatachannel.EventLoop.Accounting
import HxDatachannel.World.Effect
import HxDatachannel.Lists.Shape

/-!
# `Lists.Refine` — the queues of the other models are these lists

The other models keep the two lists as queues. Here they are related to the pointers in both directions:
what the pointers do is a run of the mailbox (`pointers_refine_mailbox`), and whatever the mailbox, the
event loop or the program does with its queues, the pointers can do (`mailbox_implemented`,
`eventLoop_implemented`, `world_implemented`): `malloc` finds an address, and no operation faults.
-/

namespace HxDatachannel
namespace Lists

open Linked Lts

/-- The fields of the nodes of both lists are what the mailbox holds. -/
def Contents.Shows (c : Contents) (m : Mailbox) : Prop :=
  (c .callback_results).map Prod.snd = m.results.queue.map .result ∧
  (c .datachannel_callbacks).map Prod.snd = m.announcements.queue.map .announcement

/-- The memory implements the mailbox. -/
def Implements (s : State) (m : Mailbox) : Prop := ∃ c, Shape s c ∧ c.Shows m

/-- Nothing was posted yet. -/
def noMail : Mailbox := ⟨.empty, .empty⟩

theorem implements_blank : Implements .blank noMail := ⟨_, shape_blank, rfl, rfl⟩

/-! ## The contents and the mailbox -/

theorem Contents.Shows.post {c : Contents} {m m' : Mailbox} {p : Post} (h : c.Shows m) (b : Addr)
    (junk : Block) (hm : m.step (.post p) = some m') : (c.after (.append b junk p)).Shows m' := by
  obtain ⟨hr, hd⟩ := h
  cases p with
  | result r =>
      obtain rfl := Option.some.inj hm
      refine ⟨?_, hd⟩
      show (c .callback_results ++ [(b, Post.result r)]).map Prod.snd = _
      rw [List.map_append, hr, Fifo.push_queue, List.map_append]
      rfl
  | announcement d =>
      obtain rfl := Option.some.inj hm
      refine ⟨hr, ?_⟩
      show (c .datachannel_callbacks ++ [(b, Post.announcement d)]).map Prod.snd = _
      rw [List.map_append, hd, Fifo.push_queue, List.map_append]
      rfl

/-- The list a mailbox action takes from. -/
def takes : MailAct → Option Name
  | .post _           => none
  | .takeAnnouncement => some .datachannel_callbacks
  | .takeResult       => some .callback_results

/-- Where the mailbox can take, the list has a first node, and the two go on alike. -/
theorem Contents.Shows.take {c : Contents} {m m' : Mailbox} {a : MailAct} {l : Name} (h : c.Shows m)
    (ha : takes a = some l) (hm : m.step a = some m') : c l ≠ [] ∧ (c.after (.pop l)).Shows m' := by
  obtain ⟨hr, hd⟩ := h
  cases a with
  | post p => exact absurd ha (by simp [takes])
  | takeAnnouncement =>
      obtain rfl := Option.some.inj ha
      obtain ⟨out, hpop, rfl⟩ := Option.map_eq_some_iff.mp hm
      obtain ⟨hq, -, -⟩ := Fifo.pop_eq_some hpop
      rw [hq] at hd
      refine ⟨?_, hr, ?_⟩
      · intro hnil
        exact absurd (hnil ▸ hd) (by simp)
      · show (c .datachannel_callbacks).tail.map Prod.snd = _
        rw [List.map_tail, hd]
        rfl
  | takeResult =>
      obtain rfl := Option.some.inj ha
      obtain ⟨out, hpop, rfl⟩ := Option.map_eq_some_iff.mp hm
      obtain ⟨hq, -, -⟩ := Fifo.pop_eq_some hpop
      rw [hq] at hr
      refine ⟨?_, ?_, hd⟩
      · intro hnil
        exact absurd (hnil ▸ hr) (by simp)
      · show (c .callback_results).tail.map Prod.snd = _
        rw [List.map_tail, hr]
        rfl

/-- Where the list has a first node, the mailbox can take. -/
theorem Contents.Shows.can_take {c : Contents} {m : Mailbox} {l : Name} (h : c.Shows m) (hl : c l ≠ []) :
    ∃ a m', takes a = some l ∧ m.step a = some m' := by
  obtain ⟨hr, hd⟩ := h
  cases l with
  | callback_results =>
      cases hq : m.results.pop with
      | none =>
          rw [Fifo.pop_eq_none hq] at hr
          exact absurd (List.map_eq_nil_iff.mp hr) hl
      | some out => exact ⟨.takeResult, _, rfl, Option.map_eq_some_iff.mpr ⟨out, hq, rfl⟩⟩
  | datachannel_callbacks =>
      cases hq : m.announcements.pop with
      | none =>
          rw [Fifo.pop_eq_none hq] at hd
          exact absurd (List.map_eq_nil_iff.mp hd) hl
      | some out => exact ⟨.takeAnnouncement, _, rfl, Option.map_eq_some_iff.mpr ⟨out, hq, rfl⟩⟩

/-! ## From the pointers to the mailbox -/

/-- **An act of the pointers** is an action of the mailbox, or none. -/
theorem step_refines {s t : State} {m : Mailbox} {a : Act} (h : Implements s m)
    (hstep : step s a = some t) : ∃ m', Path Mailbox.step Any m m' ∧ Implements t m' := by
  obtain ⟨c, hc, hm⟩ := h
  have ht := step_shape hc hstep
  cases a with
  | append b junk p =>
      obtain ⟨m', hm'⟩ : ∃ m', m.step (.post p) = some m' := by cases p <;> exact ⟨_, rfl⟩
      exact ⟨m', Path.single trivial hm', _, ht, hm.post b junk hm'⟩
  | pop l =>
      by_cases hl : c l = []
      · obtain rfl := Option.some.inj ((pop_nil_shape hc hl).symm.trans hstep)
        exact ⟨m, Lts.Path.refl m, c, hc, hm⟩
      · obtain ⟨a, m', ha, hm'⟩ := hm.can_take hl
        exact ⟨m', Path.single trivial hm', _, ht, (hm.take ha hm').2⟩
  | free a => exact ⟨m, Lts.Path.refl m, c, ht, hm⟩

/-- **The pointers refine the mailbox.** -/
theorem pointers_refine_mailbox {C : State → Act → Prop} {s : State} (h : Path step C .blank s) :
    ∃ m, Path Mailbox.step Any noMail m ∧ Implements s m := by
  refine h.simulate (R := Implements) ?_ implements_blank
  intro s a t m hs _ hstep
  exact step_refines hs hstep

/-! ## From the mailbox to the pointers -/

/-- `malloc` can always find an address: what is allocated is in hand or in a list. -/
theorem Shape.exists_free {s : State} {c : Contents} (h : Shape s c) : ∃ b, s.mem.heap b = none := by
  obtain ⟨b, hb⟩ := Infinite.exists_notMem_finset
    (addrs s.hand ++ (addrs (c .callback_results) ++ addrs (c .datachannel_callbacks))).toFinset
  refine ⟨b, ?_⟩
  by_contra hne
  apply hb
  rw [List.mem_toFinset, List.mem_append, List.mem_append]
  rcases h.covered b hne with hhand | ⟨l, hl⟩
  · exact Or.inl hhand
  · cases l with
    | callback_results => exact Or.inr (Or.inl hl)
    | datachannel_callbacks => exact Or.inr (Or.inr hl)

/-- **An action of the mailbox** is an act of the pointers. -/
theorem step_implemented {s : State} {m m' : Mailbox} {a : MailAct} (h : Implements s m)
    (hm : m.step a = some m') : ∃ t, Path step Any s t ∧ Implements t m' := by
  obtain ⟨c, hc, hshow⟩ := h
  cases hl : takes a with
  | none =>
      cases a with
      | post p =>
          obtain ⟨b, hb⟩ := hc.exists_free
          let junk : Block := ⟨none, p⟩
          obtain ⟨t, hstep, ht⟩ := append_shape hc hb (show listOf junk.value = listOf p from rfl)
          exact ⟨t, Path.single trivial hstep, _, ht, hshow.post b junk hm⟩
      | takeAnnouncement => exact absurd hl (by simp [takes])
      | takeResult => exact absurd hl (by simp [takes])
  | some l =>
      obtain ⟨hne, hshow'⟩ := hshow.take hl hm
      obtain ⟨n, rest, hcons⟩ := List.exists_cons_of_ne_nil hne
      obtain ⟨t, hstep, -, -⟩ := pop_cons_shape hc hcons
      exact ⟨t, Path.single trivial hstep, _, step_shape hc hstep, hshow'⟩

/-- **Whatever the mailbox does, the pointers implement.** -/
theorem mailbox_implemented {m : Mailbox} (h : Path Mailbox.step Any noMail m) :
    ∃ s, Path step Any .blank s ∧ Implements s m := by
  refine h.simulate (R := fun m s => Implements s m) ?_ implements_blank
  intro m a m' s hs _ hstep
  exact step_implemented hs hstep

/-- The queues of the event loop are implemented by the pointers, whatever the threads do. -/
theorem eventLoop_implemented {C : EventLoop.State → EventLoop.Label → Prop} {t : EventLoop.State}
    (h : Path EventLoop.step C .blank t) :
    ∃ s, Path step Any .blank s ∧ Implements s t.globals.mailbox :=
  mailbox_implemented (EventLoop.eventLoop_refines h)

/-- The queues of the program as an application sees it are implemented by the pointers. -/
theorem world_implemented {C : World → WorldAct → Prop} {w : World} (h : Path World.step C .init w) :
    ∃ s, Path step Any .blank s ∧ Implements s w.mailbox :=
  mailbox_implemented (world_refines h)

end Lists
end HxDatachannel
