import HxDatachannel.World.Tidy

/-!
# `World.Lane` — the program seen from one channel

The part of the program that concerns channel `d` is its lane: the channel and its own events in the shared
queue. Whatever the program does, the lane of `d` stays as it is, comes into being, or makes a step of its
own (`lane_move`). A property that the steps of a lane preserve is therefore a property of every run of the
program, whatever the other channels and the connections do.
-/

namespace HxDatachannel

open Lts

/-- What a step of the program is for the lane of channel `d`. -/
def World.laneAct (w : World) (d : Nat) : WorldAct → Option LaneAct
  | .native e a => if e = d then some (.chan a) else none
  | .advance buffer =>
      match w.stack with
      | .making e :: _ => if e = d then some (.chan (.make buffer)) else none
      | .draining :: _ =>
          match w.results.queue with
          | r :: _ => if r.ofChannel d then some .enter else none
          | []     => none
      | _ => none
  | _ => none

/-- A lane moves by a native step of its channel, or by the Haxe thread, which makes the wrapper or enters a
    handler. -/
theorem laneAct_cases {w : World} {d : Nat} {a : WorldAct} {b : LaneAct} (h : w.laneAct d a = some b) :
    (∃ x, a = .native d x ∧ b = .chan x) ∨
    ∃ buffer, a = .advance buffer ∧ (b = .chan (.make buffer) ∨ b = .enter) := by
  cases a with
  | native e x =>
      simp only [World.laneAct, Option.ite_none_right_eq_some, Option.some.injEq] at h
      obtain ⟨rfl, rfl⟩ := h
      exact .inl ⟨x, rfl, rfl⟩
  | advance buffer =>
      refine .inr ⟨buffer, rfl, ?_⟩
      simp only [World.laneAct] at h
      split at h
      · exact .inl (Option.some.inj (Option.ite_none_right_eq_some.mp h).2).symm
      · split at h
        · exact .inr (Option.some.inj (Option.ite_none_right_eq_some.mp h).2).symm
        · exact absurd h (by simp)
      · exact absurd h (by simp)
  | _ => exact absurd h (by simp [World.laneAct])

/-- The lane of `d` before and after a step. -/
inductive LaneMove (d : Nat) (w : World) (a : WorldAct) (w' : World) : Prop where
  | stay (ha : w.laneAct d a = none) (h : w'.lane d = w.lane d)
  | new {pc label incoming} (ha : w.laneAct d a = none) (hd : w.lane d = none)
      (h : w'.lane d = some ⟨.fresh pc label incoming, .empty⟩)
  | move {l l' b} (ha : w.laneAct d a = some b) (hl : w.lane d = some l)
      (hstep : l.step d b = some l') (h : w'.lane d = some l')

theorem lane_eq {w : World} {d : Nat} {c : Chan} (hc : w.chan d = some c) :
    w.lane d = some ⟨c, w.results.filter (CallbackResult.ofChannel d)⟩ := by
  rw [World.lane, hc]
  rfl

theorem lane_eq_none {w : World} {d : Nat} : w.lane d = none ↔ w.chan d = none := by
  simp [World.lane]

/-- The lane depends on the channel and on the events only. -/
theorem lane_congr {w w' : World} {d : Nat} (hc : w'.chan d = w.chan d)
    (hr : w'.results.filter (CallbackResult.ofChannel d)
      = w.results.filter (CallbackResult.ofChannel d)) : w'.lane d = w.lane d := by
  rw [World.lane, World.lane, hc, hr]

theorem ofChannel_iff {d : Nat} {r : CallbackResult} :
    r.ofChannel d = true ↔ r.closure.channel = some d := by
  simp [CallbackResult.ofChannel]

theorem ofChannel_ne {d e : Nat} {r : CallbackResult} (h : r.closure.channel = some e)
    (hne : e ≠ d) : r.ofChannel d = false := by
  simp [CallbackResult.ofChannel, h, hne]

theorem filter_pushAll_self {d : Nat} {q : Fifo CallbackResult} {post : Option CallbackResult}
    (h : ∀ r, post = some r → r.closure.channel = some d) :
    (pushAll q post).filter (CallbackResult.ofChannel d)
      = pushAll (q.filter (CallbackResult.ofChannel d)) post := by
  cases post with
  | none => rfl
  | some r => exact Fifo.filter_push_pos q (ofChannel_iff.mpr (h r rfl))

theorem filter_pushAll_other {d e : Nat} {q : Fifo CallbackResult} {post : Option CallbackResult}
    (h : ∀ r, post = some r → r.closure.channel = some e) (hne : e ≠ d) :
    (pushAll q post).filter (CallbackResult.ofChannel d)
      = q.filter (CallbackResult.ofChannel d) := by
  cases post with
  | none => rfl
  | some r => exact Fifo.filter_push_neg q (ofChannel_ne (h r rfl) hne)

/-- A channel that does not exist has no events. -/
theorem Tidy.no_events {w : World} (h : Tidy w) {d : Nat} (hd : w.chan d = none) :
    w.results.filter (CallbackResult.ofChannel d) = .empty := by
  have hnone : ∀ r ∈ w.results.pushed, r.ofChannel d ≠ true := by
    intro r hr he
    obtain ⟨c, hc, -⟩ := h.owned r hr d (ofChannel_iff.mp he)
    rw [hd] at hc
    exact absurd hc (by simp)
  have hcons := h.conserved
  unfold Fifo.Conserved at hcons
  have hq : ∀ r ∈ w.results.queue, r.ofChannel d ≠ true := fun r hr =>
    hnone r (by rw [← hcons]; exact List.mem_append_right _ hr)
  have hp : ∀ r ∈ w.results.popped, r.ofChannel d ≠ true := fun r hr =>
    hnone r (by rw [← hcons]; exact List.mem_append_left _ hr)
  unfold Fifo.filter Fifo.empty
  rw [List.filter_eq_nil_iff.mpr hnone, List.filter_eq_nil_iff.mpr hq,
    List.filter_eq_nil_iff.mpr hp]

/-- The lane of `d` when channel `e` steps and queues `post`. -/
theorem lane_of_act {w w' : World} {d e : Nat} {b : ChanAct} {a : WorldAct} {c c' : Chan}
    {post : Option CallbackResult} (hc : w.chan e = some c) (hact : c.act e b = some (c', post))
    (hchan : w'.chan = Function.update w.chan e (some c')) (hres : w'.results = pushAll w.results post)
    (ha : w.laneAct d a = if e = d then some (.chan b) else none) : LaneMove d w a w' := by
  have howner : ∀ r, post = some r → r.closure.channel = some e := by
    rintro r rfl
    exact (chan_effect hact).owner
  by_cases hd : e = d
  · subst hd
    refine .move (by rw [ha, if_pos rfl]) (lane_eq hc) ?_
      (lane_eq (by rw [hchan, Function.update_self]))
    rw [Lane.step, hact, hres, filter_pushAll_self howner]
    rfl
  · refine .stay (by rw [ha, if_neg hd]) (lane_congr ?_ ?_)
    · rw [hchan, Function.update_of_ne (Ne.symm hd)]
    · rw [hres, filter_pushAll_other howner hd]

/-- The lane of `d` when a channel comes into being. -/
theorem lane_of_new {w w' : World} {d e pc : Nat} {label : Bytes} {incoming : Bool} {a : WorldAct}
    (h : Tidy w) (he : w.chan e = none)
    (hchan : w'.chan = Function.update w.chan e (some (.fresh pc label incoming)))
    (hres : w'.results = w.results) (ha : w.laneAct d a = none) : LaneMove d w a w' := by
  by_cases hd : d = e
  · subst hd
    have hc : w'.chan d = some (.fresh pc label incoming) := by rw [hchan, Function.update_self]
    have hl := lane_eq hc
    rw [hres, h.no_events he] at hl
    exact .new ha (lane_eq_none.mpr he) hl
  · exact .stay ha (lane_congr (by rw [hchan, Function.update_of_ne hd]) (by rw [hres]))

/-- **Projection.** Every step of the program is, for each channel, a step of its lane or nothing. -/
theorem lane_move {w w' : World} {a : WorldAct} (h : Tidy w) (hstep : w.step a = some w') (d : Nat) :
    LaneMove d w a w' := by
  have hlive := (tidy_step h hstep).live
  cases world_effect hstep with
  | raise hcb =>
      refine .stay rfl (lane_congr rfl ?_)
      apply Fifo.filter_push_neg _
      simp [CallbackResult.ofChannel, connectionEvent_channel hcb]
  | announce hd => exact lane_of_new h hd rfl rfl rfl
  | create hd => exact lane_of_new h hd rfl rfl rfl
  | native _ hc hact => exact lane_of_act hc hact rfl rfl rfl
  | make hs hc hact => exact lane_of_act hc hact rfl rfl (by rw [World.laneAct, hs])
  | created hs hc hact => exact lane_of_act hc hact rfl rfl (by rw [World.laneAct, hs])
  | onDataChannel hs hc hact => exact lane_of_act hc hact rfl rfl (by rw [World.laneAct, hs])
  | @enterConnection buffer r q rest hs hpop hcell =>
      have hof : r.ofChannel d = false := by simp [CallbackResult.ofChannel, hcell]
      refine .stay ?_ (lane_congr rfl (Fifo.filter_pop_neg hpop hof))
      simp [World.laneAct, hs, (Fifo.pop_eq_some hpop).1, hof]
  | @enterChannel buffer r q rest e c hs hpop hcell hc hinst =>
      -- the head of the shared queue is the head of its own lane, and in no other lane
      by_cases hd : e = d
      · subst hd
        have hof : r.ofChannel e = true := ofChannel_iff.mpr hcell
        refine .move (b := .enter) ?_ (lane_eq hc) ?_ (lane_eq (Function.update_self ..))
        · simp [World.laneAct, hs, (Fifo.pop_eq_some hpop).1, hof]
        · rw [Lane.step, Fifo.filter_pop_pos hpop hof]
          rfl
      · have hof : r.ofChannel d = false := ofChannel_ne hcell hd
        refine .stay ?_ (lane_congr (Function.update_of_ne (Ne.symm hd) ..)
          (Fifo.filter_pop_neg hpop hof))
        simp [World.laneAct, hs, (Fifo.pop_eq_some hpop).1, hof]
  | nullCall => exact absurd hlive (by simp)
  | empty hs hpop =>
      refine .stay ?_ rfl
      simp [World.laneAct, hs, Fifo.pop_eq_none hpop]
  | popAnnouncement hs | noAnnouncement hs => exact .stay (by simp [World.laneAct, hs]) rfl
  | _ => exact .stay rfl rfl

/-- **Lane rule.** What a new lane has and every step of a lane under the guard preserves, the lane of `d`
    has in every run of the program that keeps the guard. -/
theorem lane_path {d : Nat} {I : Lane → Prop} {C : World → WorldAct → Prop}
    {G : Lane → LaneAct → Prop}
    (hfresh : ∀ pc label incoming, I ⟨.fresh pc label incoming, .empty⟩)
    (hI : ∀ l b l', I l → G l b → l.step d b = some l' → I l')
    (hG : ∀ w a l b, C w a → w.lane d = some l → w.laneAct d a = some b → G l b) {w : World}
    (h : Path World.step C .init w) {l : Lane} (hl : w.lane d = some l) : I l := by
  have hinv : Tidy w ∧ ∀ l, w.lane d = some l → I l := by
    refine h.invariant (I := fun w => Tidy w ∧ ∀ l, w.lane d = some l → I l) ?_
      ⟨tidy_init, fun l hl => absurd hl (by simp [World.lane, World.init])⟩
    rintro w a w' ⟨ht, hw⟩ hC hstep
    refine ⟨tidy_step ht hstep, ?_⟩
    intro l hl
    cases lane_move ht hstep d with
    | stay _ he => exact hw l (he ▸ hl)
    | new _ _ he =>
        obtain rfl := Option.some.inj (he.symm.trans hl)
        exact hfresh _ _ _
    | move ha hl₀ hls he =>
        obtain rfl := Option.some.inj (he.symm.trans hl)
        exact hI _ _ _ (hw _ hl₀) (hG _ _ _ _ hC hl₀ ha) hls
  exact hinv.2 l hl

end HxDatachannel
