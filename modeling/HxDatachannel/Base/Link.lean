import Mathlib.Data.List.Perm.Subperm

/-!
# `Base.Link` — a link that may reorder and lose

What is on the way from one end of a link to the other is a list, first sent first. `arrives` says which
packet may come out next: one that is unordered may overtake, one that is ordered overtakes unordered
ones only, and nothing overtakes a barrier or is overtaken by it.

`Flow` relates what came out and what is on the way to what went in, `Conveyed` what came out to what
went in, for a link that is ordered or not and reliable or not.
-/

namespace Link

variable {α β : Type}

/-! ## What may come out next -/

/-- The `i`-th packet on the way may come out next. -/
def arrives (barrier unordered : α → Bool) (w : List α) (i : Nat) : Bool :=
  match w[i]? with
  | none   => false
  | some m =>
      if barrier m then i = 0
      else (w.take i).all fun x => !barrier x && (unordered m || unordered x)

variable {barrier unordered : α → Bool}

theorem arrives_lt {w : List α} {i : Nat} (h : arrives barrier unordered w i = true) : i < w.length := by
  unfold arrives at h
  split at h
  · exact absurd h (by simp)
  · rename_i m hm
    exact (List.getElem?_eq_some_iff.mp hm).1

/-- Nothing comes out of an empty link. -/
theorem arrives_nil {i : Nat} : ¬ arrives barrier unordered ([] : List α) i = true := by
  intro h
  exact absurd (arrives_lt h) (by simp)

/-- Where all is ordered, the first comes out first. -/
theorem arrives_ordered {w : List α} {i : Nat} (hw : ∀ x ∈ w, unordered x = false)
    (h : arrives barrier unordered w i = true) : i = 0 := by
  unfold arrives at h
  split at h
  · exact absurd h (by simp)
  · rename_i m hm
    split at h
    · simpa using h
    · cases i with
      | zero => rfl
      | succ i =>
          cases w with
          | nil => simp at hm
          | cons x w =>
              have hx := hw x (by simp)
              have hum := hw m (List.mem_of_getElem? hm)
              simp [hx, hum] at h

/-- An ordered packet comes out first if all before it are ordered. -/
theorem arrives_head {w : List α} {i : Nat} {x : α} (hx : unordered x = false)
    (hw : ∀ m ∈ w, unordered m = false) (h : arrives barrier unordered (x :: w) i = true) : i = 0 := by
  refine arrives_ordered (w := x :: w) ?_ h
  intro m hm
  rcases List.mem_cons.mp hm with rfl | hm
  · exact hx
  · exact hw m hm

/-- What comes out of the front part could come out without the back part. -/
theorem arrives_left {u v : List α} {i : Nat} (hi : i < u.length)
    (h : arrives barrier unordered (u ++ v) i = true) : arrives barrier unordered u i = true := by
  unfold arrives at h ⊢
  rw [List.getElem?_append_left hi, List.take_append_of_le_length (Nat.le_of_lt hi)] at h
  exact h

/-- **Barriers.** What comes out stands before the barrier, or it is the barrier and nothing stands
    before it. -/
theorem arrives_barrier {u v : List α} {z : α} {i : Nat} (hz : barrier z = true)
    (h : arrives barrier unordered (u ++ z :: v) i = true) :
    (i < u.length ∧ arrives barrier unordered u i = true) ∨ (i = 0 ∧ u = []) := by
  rcases Nat.lt_trichotomy i u.length with hi | rfl | hi
  · exact .inl ⟨hi, arrives_left hi h⟩
  · right
    unfold arrives at h
    rw [List.getElem?_append_right (Nat.le_refl _), Nat.sub_self, List.getElem?_cons_zero] at h
    simp only [hz, if_true, decide_eq_true_eq] at h
    exact ⟨h, List.length_eq_zero_iff.mp h⟩
  · exfalso
    unfold arrives at h
    split at h
    · exact absurd h (by simp)
    · split at h
      · have hi0 : i = 0 := by simpa using h
        omega
      · have hmem : z ∈ (u ++ z :: v).take i := by
          rw [List.take_append]
          refine List.mem_append_right _ ?_
          obtain ⟨k, hk⟩ : ∃ k, i - u.length = k + 1 := ⟨i - u.length - 1, by omega⟩
          rw [hk, List.take_succ_cons]
          exact List.mem_cons_self
        have := List.all_eq_true.mp h z hmem
        simp [hz] at this

/-! ## What comes out of what went in -/

/-- What came out and is on the way, against what went in. -/
structure Flow (ordered reliable : Prop) (xs sent : List α) : Prop where
  subperm : xs.Subperm sent
  sublist : ordered → xs.Sublist sent
  perm    : reliable → xs.Perm sent

/-- What came out, against what went in. -/
structure Conveyed (ordered reliable : Prop) (got sent : List α) : Prop where
  subperm : got.Subperm sent
  sublist : ordered → got.Sublist sent
  front   : ordered → reliable → got <+: sent

variable {ordered reliable : Prop}

theorem Flow.refl (xs : List α) : Flow ordered reliable xs xs :=
  ⟨List.Subperm.refl xs, fun _ => List.Sublist.refl xs, fun _ => List.Perm.refl xs⟩

/-- On an ordered reliable link all is there, in order. -/
theorem Flow.eq {xs sent : List α} (h : Flow ordered reliable xs sent) (ho : ordered) (hr : reliable) :
    xs = sent :=
  (h.sublist ho).eq_of_length (h.perm hr).length_eq

theorem Flow.send {xs sent : List α} (h : Flow ordered reliable xs sent) (m : List α) :
    Flow ordered reliable (xs ++ m) (sent ++ m) :=
  ⟨(List.subperm_append_right m).mpr h.subperm, fun ho => (h.sublist ho).append_right m,
    fun hr => (h.perm hr).append_right m⟩

/-- A packet comes out; on an ordered link it is the first. -/
theorem Flow.deliver {got fly fly' sent : List α} {m : α} (h : Flow ordered reliable (got ++ fly) sent)
    (hperm : fly.Perm (m :: fly')) (ho : ordered → fly = m :: fly') :
    Flow ordered reliable (got ++ [m] ++ fly') sent := by
  have hall : (got ++ [m] ++ fly').Perm (got ++ fly) := by
    rw [List.append_assoc]
    exact hperm.symm.append_left got
  refine ⟨hall.subperm.trans h.subperm, ?_, fun hr => hall.trans (h.perm hr)⟩
  intro hord
  rw [List.append_assoc, List.singleton_append, ← ho hord]
  exact h.sublist hord

/-- A packet is lost, on a link that is not reliable. -/
theorem Flow.lose {got fly fly' sent : List α} (h : Flow ordered reliable (got ++ fly) sent)
    (hsub : fly'.Sublist fly) (hr : ¬ reliable) : Flow ordered reliable (got ++ fly') sent :=
  ⟨((List.Sublist.refl got).append hsub).subperm.trans h.subperm,
    fun ho => ((List.Sublist.refl got).append hsub).trans (h.sublist ho), fun h' => absurd h' hr⟩

theorem Flow.conveyed {got fly sent : List α} (h : Flow ordered reliable (got ++ fly) sent) :
    Conveyed ordered reliable got sent :=
  ⟨(List.sublist_append_left got fly).subperm.trans h.subperm,
    fun ho => (List.sublist_append_left got fly).trans (h.sublist ho),
    fun ho hr => ⟨fly, h.eq ho hr⟩⟩

/-- What is known under weaker conditions is known under stronger ones. -/
theorem Flow.weaken {ordered' reliable' : Prop} {xs sent : List α} (h : Flow ordered reliable xs sent)
    (ho : ordered' → ordered) (hr : reliable' → reliable) : Flow ordered' reliable' xs sent :=
  ⟨h.subperm, fun h' => h.sublist (ho h'), fun h' => h.perm (hr h')⟩

theorem Conveyed.weaken {ordered' reliable' : Prop} {got sent : List α} (h : Conveyed ordered reliable got sent)
    (ho : ordered' → ordered) (hr : reliable' → reliable) : Conveyed ordered' reliable' got sent :=
  ⟨h.subperm, fun h' => h.sublist (ho h'), fun h' hr' => h.front (ho h') (hr hr')⟩

/-- The first part of what came out. -/
theorem Conveyed.take {got got' sent : List α} (h : Conveyed ordered reliable got sent) (hpre : got' <+: got) :
    Conveyed ordered reliable got' sent :=
  ⟨hpre.sublist.subperm.trans h.subperm, fun ho => hpre.sublist.trans (h.sublist ho),
    fun ho hr => hpre.trans (h.front ho hr)⟩

/-- The payload of what came out, against the payload of what went in. -/
theorem Conveyed.filterMap {got sent : List α} (h : Conveyed ordered reliable got sent) (f : α → Option β) :
    Conveyed ordered reliable (got.filterMap f) (sent.filterMap f) := by
  obtain ⟨l, hperm, hsub⟩ := h.subperm
  exact ⟨⟨l.filterMap f, hperm.filterMap f, hsub.filterMap f⟩, fun ho => (h.sublist ho).filterMap f, fun ho hr => (h.front ho hr).filterMap f⟩

theorem Conveyed.nil (sent : List α) : Conveyed ordered reliable [] sent :=
  ⟨List.nil_subperm, fun _ => List.nil_sublist sent, fun _ _ => List.nil_prefix⟩

theorem Conveyed.send {got sent : List α} (h : Conveyed ordered reliable got sent) (m : List α) :
    Conveyed ordered reliable got (sent ++ m) :=
  ⟨h.subperm.trans (List.sublist_append_left sent m).subperm,
    fun ho => (h.sublist ho).trans (List.sublist_append_left sent m),
    fun ho hr => (h.front ho hr).trans (List.prefix_append sent m)⟩

/-! ## The payload of what is on the way -/

/-- Taking out a packet without payload changes no payload. -/
theorem filterMap_eraseIdx_none {f : α → Option β} {w : List α} {i : Nat} {m : α} (hm : w[i]? = some m)
    (hf : f m = none) : (w.eraseIdx i).filterMap f = w.filterMap f := by
  induction w generalizing i with
  | nil => simp at hm
  | cons x w ih =>
      cases i with
      | zero =>
          obtain rfl : x = m := by simpa using hm
          rw [List.eraseIdx_cons_zero, List.filterMap_cons_none hf]
      | succ i =>
          rw [List.eraseIdx_cons_succ, List.filterMap_cons, List.filterMap_cons, ih (by simpa using hm)]

/-- Taking out a packet takes out its payload. -/
theorem filterMap_eraseIdx_some {f : α → Option β} {w : List α} {i : Nat} {m : α} {b : β}
    (hm : w[i]? = some m) (hf : f m = some b) :
    (w.filterMap f).Perm (b :: (w.eraseIdx i).filterMap f) := by
  induction w generalizing i with
  | nil => simp at hm
  | cons x w ih =>
      cases i with
      | zero =>
          obtain rfl : x = m := by simpa using hm
          rw [List.eraseIdx_cons_zero, List.filterMap_cons_some hf]
      | succ i =>
          have hrest := ih (i := i) (by simpa using hm)
          rw [List.eraseIdx_cons_succ, List.filterMap_cons, List.filterMap_cons]
          cases f x with
          | none => exact hrest
          | some c => exact (hrest.cons c).trans (List.Perm.swap b c _)

theorem filterMap_eraseIdx_sublist (f : α → Option β) (w : List α) (i : Nat) :
    ((w.eraseIdx i).filterMap f).Sublist (w.filterMap f) :=
  (List.eraseIdx_sublist w i).filterMap f

end Link
