import Mathlib.Data.List.Forall2
import Mathlib.Logic.Function.Basic

/-!
# `Base.Framing` — frames cut into fragments

Frames travel on lanes, each cut into fragments of which the last says that the frame ends. The fragments
of one lane come in order; those of different lanes may come interleaved. `frames` puts them together, with
one buffer for each lane.

Lanes do not disturb each other (`frames_lane`), a stream of fragments can be read in parts
(`frames_append`), and what was cut comes together again (`frames_cuts`). Everything is parametric in the
lanes, the data and in what the end of a frame says about it.
-/

namespace Framing

/-- Some data of a frame on a lane. The last fragment of a frame has its information. -/
structure Fragment (κ α ι : Type) where
  lane : κ
  data : List α
  last : Option ι

/-- A frame: its lane, its information and its data. -/
abbrev Frame (κ α ι : Type) := κ × ι × List α

variable {κ α ι : Type} [DecidableEq κ]

/-- What each lane has of a frame that is not complete. -/
abbrev Buffers (κ α : Type) := κ → List α

/-- The frames that fragments complete, in the order in which they are completed. -/
def frames : Buffers κ α → List (Fragment κ α ι) → List (Frame κ α ι)
  | _, []      => []
  | b, f :: fs =>
      match f.last with
      | none   => frames (Function.update b f.lane (b f.lane ++ f.data)) fs
      | some i => (f.lane, i, b f.lane ++ f.data) :: frames (Function.update b f.lane []) fs

/-- What is left in the buffers. -/
def rest : Buffers κ α → List (Fragment κ α ι) → Buffers κ α
  | b, []      => b
  | b, f :: fs =>
      match f.last with
      | none   => rest (Function.update b f.lane (b f.lane ++ f.data)) fs
      | some _ => rest (Function.update b f.lane []) fs

/-- The empty buffers. -/
def empty : Buffers κ α := fun _ => []

/-- The fragments carry one frame on a lane: the last of them, and no other, ends it. -/
structure Cut (k : κ) (i : ι) (data : List α) (fs : List (Fragment κ α ι)) : Prop where
  lane : ∀ f ∈ fs, f.lane = k
  data : fs.flatMap Fragment.data = data
  last : fs.getLast?.bind Fragment.last = some i
  more : ∀ f ∈ fs.dropLast, f.last = none

/-! ## Reading in parts -/

theorem frames_append (b : Buffers κ α) (fs gs : List (Fragment κ α ι)) :
    frames b (fs ++ gs) = frames b fs ++ frames (rest b fs) gs := by
  induction fs generalizing b with
  | nil => rfl
  | cons f fs ih =>
      simp only [List.cons_append, frames, rest]
      cases f.last with
      | none => exact ih _
      | some i => exact congrArg (_ :: ·) (ih _)

theorem rest_append (b : Buffers κ α) (fs gs : List (Fragment κ α ι)) :
    rest b (fs ++ gs) = rest (rest b fs) gs := by
  induction fs generalizing b with
  | nil => rfl
  | cons f fs ih =>
      simp only [List.cons_append, rest]
      cases f.last <;> exact ih _

/-! ## Lanes -/

/-- **Lanes.** The frames of a lane are those of its own fragments. -/
theorem frames_lane (k : κ) {b b' : Buffers κ α} (h : b k = b' k) (fs : List (Fragment κ α ι)) :
    (frames b fs).filter (fun x => x.1 = k) = frames b' (fs.filter fun f => f.lane = k) := by
  induction fs generalizing b b' with
  | nil => rfl
  | cons f fs ih =>
      by_cases hk : f.lane = k
      · subst hk
        rw [List.filter_cons_of_pos (by simp)]
        simp only [frames]
        cases f.last with
        | none =>
            refine ih ?_
            rw [Function.update_self, Function.update_self, h]
        | some i =>
            rw [List.filter_cons_of_pos (by simp), h]
            refine congrArg (_ :: ·) (ih ?_)
            rw [Function.update_self, Function.update_self]
      · rw [List.filter_cons_of_neg (by simpa using hk)]
        simp only [frames]
        cases f.last with
        | none => exact ih ((Function.update_of_ne (Ne.symm hk) ..).trans h)
        | some i =>
            rw [List.filter_cons_of_neg (by simpa using hk)]
            exact ih ((Function.update_of_ne (Ne.symm hk) ..).trans h)

/-- The buffer of a lane is that of its own fragments. -/
theorem rest_lane (k : κ) {b b' : Buffers κ α} (h : b k = b' k) (fs : List (Fragment κ α ι)) :
    rest b fs k = rest b' (fs.filter fun f => f.lane = k) k := by
  induction fs generalizing b b' with
  | nil => exact h
  | cons f fs ih =>
      by_cases hk : f.lane = k
      · subst hk
        rw [List.filter_cons_of_pos (by simp)]
        simp only [rest]
        cases f.last with
        | none =>
            refine ih ?_
            rw [Function.update_self, Function.update_self, h]
        | some i =>
            refine ih ?_
            rw [Function.update_self, Function.update_self]
      · rw [List.filter_cons_of_neg (by simpa using hk)]
        simp only [rest]
        cases f.last <;> exact ih ((Function.update_of_ne (Ne.symm hk) ..).trans h)

/-! ## What was cut -/

/-- A frame that was cut comes together behind what its lane has. -/
theorem frames_cut {k : κ} {i : ι} {data : List α} {fs : List (Fragment κ α ι)} (h : Cut k i data fs)
    (b : Buffers κ α) : frames b fs = [(k, i, b k ++ data)] ∧ rest b fs = Function.update b k [] := by
  induction fs generalizing b data with
  | nil => exact absurd h.last (by simp)
  | cons f fs ih =>
      obtain ⟨hlane, hdata, hlast, hmore⟩ := h
      obtain rfl := hlane f List.mem_cons_self
      cases fs with
      | nil =>
          have hf : f.last = some i := hlast
          have hd : f.data = data := by simpa using hdata
          simp only [frames, rest, hf, hd, and_self]
      | cons g gs =>
          have hf : f.last = none := hmore f (by simp)
          have hrest : Cut f.lane i ((g :: gs).flatMap Fragment.data) (g :: gs) :=
            ⟨fun x hx => hlane x (List.mem_cons_of_mem f hx), rfl, by simpa using hlast,
              fun x hx => hmore x (by simpa using .inr hx)⟩
          obtain ⟨h₁, h₂⟩ := ih hrest (Function.update b f.lane (b f.lane ++ f.data))
          simp only [frames, rest, hf] at h₁ h₂ ⊢
          rw [h₁, h₂, Function.update_self, Function.update_idem, ← hdata]
          simp

/-- A list that is related to another has for each element one that it is related to. -/
theorem forall₂_left {α β : Type} {R : α → β → Prop} {xs : List α} {ys : List β} (h : List.Forall₂ R xs ys)
    {x : α} (hx : x ∈ xs) : ∃ y ∈ ys, R x y := by
  induction h with
  | nil => exact absurd hx (by simp)
  | cons hr _ ih =>
      rcases List.mem_cons.mp hx with rfl | hx
      · exact ⟨_, List.mem_cons_self, hr⟩
      · obtain ⟨y, hy, hxy⟩ := ih hx
        exact ⟨y, List.mem_cons_of_mem _ hy, hxy⟩

/-- **Round trip.** Frames that were cut one by one come together again. -/
theorem frames_cuts {k : κ} {xs : List (ι × List α)} {css : List (List (Fragment κ α ι))}
    (h : List.Forall₂ (fun x cs => Cut k x.1 x.2 cs) xs css) {b : Buffers κ α} (hb : b k = []) :
    frames b css.flatten = xs.map fun x => (k, x.1, x.2) := by
  induction h generalizing b with
  | nil => rfl
  | cons hcut _ ih =>
      obtain ⟨h₁, h₂⟩ := frames_cut hcut b
      rw [List.flatten_cons, frames_append, h₁, h₂, hb, ih (Function.update_self ..)]
      rfl

/-- Frames that were cut come together whatever other lanes carry in between. -/
theorem frames_interleaved {k : κ} {xs : List (ι × List α)} {css : List (List (Fragment κ α ι))}
    (h : List.Forall₂ (fun x cs => Cut k x.1 x.2 cs) xs css) {fs : List (Fragment κ α ι)}
    (hfs : (fs.filter fun f => f.lane = k) = css.flatten) :
    (frames empty fs).filter (fun x => x.1 = k) = xs.map fun x => (k, x.1, x.2) := by
  rw [frames_lane k rfl, hfs, frames_cuts h rfl]

end Framing
