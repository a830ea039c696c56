import Mathlib.Data.List.TakeWhile

/-!
# `Base.Span` — reading a list up to a delimiter

A scanner that never goes back reads a list part by part: the longest run of elements that meet a predicate
(`takeWhile`), or a marker and the run behind it (`optional`). For each reader there is the text it
accounts for, and two facts: the text and the rest are the input, and a text of the right shape with a
rest that stops the run is read back as it is.
-/

namespace Span

variable {α : Type} {p : α → Bool}

/-- A run of elements that meet `p` stops where `rest` begins. -/
def Stops (p : α → Bool) (rest : List α) : Prop := ∀ a ∈ rest.head?, p a = false

theorem stops_nil : Stops p [] := by
  intro a ha
  exact absurd ha (by simp)

theorem stops_cons {a : α} {rest : List α} : Stops p (a :: rest) ↔ p a = false := by
  simp [Stops]

theorem stops_dropWhile (l : List α) : Stops p (l.dropWhile p) := by
  intro a ha
  have hhead := List.head?_dropWhile_not p l
  rw [Option.mem_def.mp ha] at hhead
  simpa using hhead

/-- A run over a list with an element that stops it ends before such an element. -/
theorem dropWhile_of_mem {c : α} {l : List α} (hmem : c ∈ l) (hc : p c = false) :
    ∃ a rest, l.dropWhile p = a :: rest ∧ p a = false := by
  cases hdrop : l.dropWhile p with
  | nil =>
      have hall := List.dropWhile_eq_nil_iff.mp hdrop c hmem
      exact absurd hall (by simp [hc])
  | cons a rest =>
      have hstop := stops_dropWhile (p := p) l
      rw [hdrop, stops_cons] at hstop
      exact ⟨a, rest, rfl, hstop⟩

theorem takeWhile_append {xs rest : List α} (hxs : ∀ x ∈ xs, p x = true) (hrest : Stops p rest) :
    (xs ++ rest).takeWhile p = xs := by
  rw [List.takeWhile_append_of_pos hxs]
  cases rest with
  | nil => simp
  | cons a rest =>
      rw [List.takeWhile_cons_of_neg (by simpa using stops_cons.mp hrest), List.append_nil]

theorem dropWhile_append {xs rest : List α} (hxs : ∀ x ∈ xs, p x = true) (hrest : Stops p rest) :
    (xs ++ rest).dropWhile p = rest := by
  rw [List.dropWhile_append_of_pos hxs]
  cases rest with
  | nil => rfl
  | cons a rest => exact List.dropWhile_cons_of_neg (by simpa using stops_cons.mp hrest)

theorem forall_takeWhile (l : List α) : ∀ x ∈ l.takeWhile p, p x = true :=
  fun _ hx => List.mem_takeWhile_imp hx

/-! ## A marker -/

variable [DecidableEq α]

/-- The rest after the marker `c`. -/
def eat (c : α) : List α → Option (List α)
  | []     => none
  | a :: l => if a = c then some l else none

theorem eat_eq_some {c : α} {l rest : List α} : eat c l = some rest ↔ l = c :: rest := by
  cases l with
  | nil => simp [eat]
  | cons a l =>
      rw [eat, Option.ite_none_right_eq_some, Option.some.injEq, List.cons.injEq]

theorem eat_cons (c : α) (rest : List α) : eat c (c :: rest) = some rest := eat_eq_some.mpr rfl

theorem eat_eq_none {c : α} {l : List α} : eat c l = none ↔ l.head? ≠ some c := by
  cases l with
  | nil => simp [eat]
  | cons a l => simp [eat]

/-- A run up to a marker goes over a list without it. -/
theorem forall_ne {c : α} {l : List α} (h : c ∉ l) : ∀ x ∈ l, decide (x ≠ c) = true :=
  fun _ hx => decide_eq_true fun he => h (he ▸ hx)

/-- The first occurrence of an element splits the list. -/
theorem split_first {c : α} {l : List α} (h : c ∈ l) :
    ∃ rest, l = l.takeWhile (· ≠ c) ++ c :: rest := by
  obtain ⟨a, rest, hdrop, ha⟩ := dropWhile_of_mem (p := (· ≠ c)) h (by simp)
  have hac : a = c := by simpa using ha
  subst hac
  exact ⟨rest, by rw [← hdrop, List.takeWhile_append_dropWhile]⟩

/-! ## A marker with the run behind it -/

/-- Read a part that begins with the marker `c`, if there is one. -/
def optional (c : α) (p : α → Bool) (l : List α) : Option (List α) × List α :=
  match eat c l with
  | some rest => (some (rest.takeWhile p), rest.dropWhile p)
  | none      => (none, l)

/-- The text of a part behind a marker. -/
def optionalText (c : α) : Option (List α) → List α
  | some part => c :: part
  | none      => []

theorem optional_text (c : α) (p : α → Bool) (l : List α) :
    optionalText c (optional c p l).1 ++ (optional c p l).2 = l := by
  unfold optional
  split
  · rename_i rest h
    rw [eat_eq_some.mp h]
    show c :: (rest.takeWhile p ++ rest.dropWhile p) = c :: rest
    rw [List.takeWhile_append_dropWhile]
  · rfl

theorem optional_forall {c : α} {p : α → Bool} {l : List α} :
    ∀ part ∈ (optional c p l).1, ∀ x ∈ part, p x = true := by
  intro part hpart
  unfold optional at hpart
  split at hpart
  · obtain rfl := Option.some.inj hpart
    exact forall_takeWhile _
  · exact absurd hpart (by simp)

/-- Where a run of `q` has ended and the marker and a run of `p` have been read, or there is no marker: what
    ends a run of `q` and is not the marker ends one of `p`. -/
theorem optional_stops {c : α} {p q : α → Bool} {l : List α} (hl : Stops q l)
    (hqp : ∀ a, q a = false → a ≠ c → p a = false) : Stops p (optional c p l).2 := by
  unfold optional
  split
  · exact stops_dropWhile _
  · rename_i hnone
    intro a ha
    exact hqp a (hl a ha) fun he => eat_eq_none.mp hnone (he ▸ ha)

theorem optional_none {c : α} {p : α → Bool} {l : List α} (h : (optional c p l).1 = none) :
    (optional c p l).2.head? ≠ some c := by
  unfold optional at h ⊢
  split at h
  · exact absurd h (by simp)
  · rename_i hnone
    exact eat_eq_none.mp hnone

theorem optional_append {c : α} {p : α → Bool} {part : Option (List α)} {rest : List α}
    (hpart : ∀ xs ∈ part, (∀ x ∈ xs, p x = true) ∧ Stops p rest)
    (hnone : part = none → rest.head? ≠ some c) :
    optional c p (optionalText c part ++ rest) = (part, rest) := by
  cases part with
  | none =>
      rw [optionalText, List.nil_append, optional, eat_eq_none.mpr (hnone rfl)]
  | some xs =>
      obtain ⟨hxs, hstop⟩ := hpart xs rfl
      rw [optionalText, List.cons_append, optional, eat_cons]
      show (some ((xs ++ rest).takeWhile p), (xs ++ rest).dropWhile p) = _
      rw [takeWhile_append hxs hstop, dropWhile_append hxs hstop]

end Span
