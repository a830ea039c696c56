import HxDatachannel.World.Lane
import HxDatachannel.Channel.Messages

/-!
# `World.Reports` — what an application hears of a channel

Once the native side is quiet and both queues are drained, the application has heard of the opening and
the closing of a channel exactly as often as they happened, in order, in exactly those runs in which the
channel did not open before its closures were installed (`lifecycle_reported`, `opening_lost`); and it has
got every message in order if no close and no second flush loop came between a message and its event
(`messages_delivered`, `message_lost`).
-/

namespace HxDatachannel

open Lts

/-- The handlers of channel `d` that were entered, in order. -/
def World.handled (w : World) (d : Nat) : List CallbackResult :=
  (w.entered.filterMap Entry.event).filter (CallbackResult.ofChannel d)

/-- Both queues are empty and no wrapper is under construction. -/
structure World.Drained (w : World) : Prop where
  announcements : w.announcements.queue = []
  results : w.results.queue = []
  idle : ∀ d, w.stack.head? ≠ some (.making d)

/-- In a drained state every wrapper is complete, and the events of its lane are used up. -/
theorem Tidy.drained {w : World} (h : Tidy w) (hd : w.Drained) {d : Nat} {c : Chan}
    (hc : w.chan d = some c) :
    ∃ l, w.lane d = some l ∧ l.chan = c ∧ l.events.Conserved ∧ c.installed = true ∧
      l.events.queue = [] ∧ l.events.popped = w.handled d := by
  refine ⟨_, lane_eq hc, rfl, ?_, ?_, ?_, ?_⟩
  · have hcons := h.conserved
    unfold Fifo.Conserved at hcons ⊢
    rw [Fifo.filter, ← hcons, List.filter_append]
  · rcases h.calm hd.idle hc with hfin | ⟨-, x, hx, -⟩
    · exact finished_installed hfin
    · rw [hd.announcements] at hx
      exact absurd hx (by simp)
  · rw [Fifo.filter, hd.results]
    rfl
  · rw [World.handled, h.log]
    rfl

/-! ## Opening and closing -/

/-- The openings of channel `d` in a step that come before its closures are installed. -/
def World.missedOpens (w : World) (d : Nat) : WorldAct → Nat
  | .native e a => if e = d then ((w.chan e).map fun c => c.missesOpen a).getD 0 else 0
  | _           => 0

/-- Channel `d` opens only when its closures are installed. -/
def OpensInstalled (d : Nat) (w : World) (a : WorldAct) : Prop := w.missedOpens d a = 0

instance (d : Nat) (w : World) (a : WorldAct) : Decidable (OpensInstalled d w a) :=
  inferInstanceAs (Decidable (w.missedOpens d a = 0))

/-- The lane of `d`, when `lost` openings came too early. -/
def ReportedAt (d lost : Nat) (w : World) : Prop :=
  Tidy w ∧ (∀ l, w.lane d = some l → Reported d lost l) ∧ (w.lane d = none → lost = 0)

theorem missedOpens_stay {w : World} {d : Nat} {a : WorldAct} (h : w.laneAct d a = none) :
    w.missedOpens d a = 0 := by
  cases a with
  | native e a =>
      by_cases he : e = d
      · simp [World.laneAct, he] at h
      · simp [World.missedOpens, he]
  | _ => rfl

theorem missedOpens_move {w : World} {d : Nat} {a : WorldAct} {b : LaneAct} {l : Lane}
    (ha : w.laneAct d a = some b) (hl : w.lane d = some l) : w.missedOpens d a = l.missesOpen b := by
  obtain ⟨c, hc, rfl⟩ := Option.map_eq_some_iff.mp hl
  rcases laneAct_cases ha with ⟨x, rfl, rfl⟩ | ⟨buffer, rfl, rfl | rfl⟩
  · simp [World.missedOpens, hc, Lane.missesOpen]
  · rfl
  · rfl

/-- **Step lemma.** -/
theorem reportedAt_step {d lost : Nat} {w w' : World} {a : WorldAct} (h : ReportedAt d lost w)
    (hstep : w.step a = some w') : ReportedAt d (lost + w.missedOpens d a) w' := by
  obtain ⟨ht, hrep, hnone⟩ := h
  refine ⟨tidy_step ht hstep, ?_, ?_⟩
  · intro l hl
    cases lane_move ht hstep d with
    | stay ha he =>
        rw [missedOpens_stay ha]
        exact hrep l (he ▸ hl)
    | new ha hd he =>
        obtain rfl := Option.some.inj (he.symm.trans hl)
        rw [missedOpens_stay ha, hnone hd]
        exact reported_fresh d _ _ _
    | @move l₀ l₁ b ha hl₀ hls he =>
        obtain rfl := Option.some.inj (he.symm.trans hl)
        rw [missedOpens_move ha hl₀]
        exact reported_step (hrep _ hl₀) hls
  · intro hd
    cases lane_move ht hstep d with
    | stay ha he => rw [missedOpens_stay ha, hnone (he ▸ hd)]
    | new ha _ he => exact absurd (he.symm.trans hd) (by simp)
    | move ha _ _ he => exact absurd (he.symm.trans hd) (by simp)

/-- Channel `d` is closed only when its messages are flushed, and its flush loops do not overtake each
    other. -/
def FlushesInOrder (d : Nat) (w : World) : WorldAct → Prop
  | .native e a =>
      match w.chan e with
      | some c => e = d → Flushed c a
      | none   => True
  | _ => True

instance (d : Nat) (w : World) (a : WorldAct) : Decidable (FlushesInOrder d w a) :=
  match a with
  | .native e a =>
      match h : w.chan e with
      | some c => decidable_of_iff (e = d → Flushed c a) (by rw [FlushesInOrder, h])
      | none => .isTrue (by rw [FlushesInOrder, h]; trivial)
  | .raise _ | .announce _ _ _ | .create _ _ _ | .processEvents | .advance _ | .exhausted | .ret
  | .throw => .isTrue trivial

theorem flushed_of_flushesInOrder {d : Nat} {w : World} {a : WorldAct} {l : Lane} {b : LaneAct}
    (h : FlushesInOrder d w a) (hl : w.lane d = some l) (ha : w.laneAct d a = some b) :
    l.Flushed b := by
  obtain ⟨c, hc, rfl⟩ := Option.map_eq_some_iff.mp hl
  rcases laneAct_cases ha with ⟨x, rfl, rfl⟩ | ⟨buffer, rfl, rfl | rfl⟩
  · simp only [FlushesInOrder, hc, true_imp_iff] at h
    exact h
  · trivial
  · trivial

/-- **Every message is delivered once and in order.** In every run in which channel `d` is closed only
    when its messages are flushed and its flush loops do not overtake each other: once the native side is
    settled and both queues are drained, `onMessage` was called for the messages that arrived before the
    close, each once and in arrival order. -/
theorem messages_delivered {w : World} {d : Nat} {c : Chan}
    (h : Path World.step (FlushesInOrder d) .init w) (hc : w.chan d = some c) (hs : c.Settled)
    (hd : w.Drained) : messages (w.handled d) = c.arrived.map (Message.event d) := by
  obtain ⟨l, hl, rfl, hcons, hinst, hqueue, hpop⟩ := (tidy_path h).drained hd hc
  have hheld : Held d l := lane_path (I := Held d) (G := fun l b => l.Flushed b)
    (fun pc label incoming => held_fresh d pc label incoming)
    (fun _ _ _ hl hb hstep => held_step hl hb hstep)
    (fun _ _ _ _ hC hl ha => flushed_of_flushesInOrder hC hl ha) h hl
  rw [← hpop]
  exact hheld.entered hcons hs hinst hqueue

/-- Two messages arrive before the wrapper of an incoming channel is made and one after; then it closes. -/
theorem messages_delivered_run : ∃ w c, Path World.step (FlushesInOrder 7) .init w ∧
    w.chan 7 = some c ∧ c.mIsClosed ∧
    messages (w.handled 7) = [⟨[10], 1⟩, ⟨[20], 1⟩, ⟨[30], 1⟩].map (Message.event 7) := by
  obtain ⟨w, c, hrun, hc, hclosed, hreset, hloop, hann, hres, hstack, harr⟩ :
      ∃ w c, exec World.step (FlushesInOrder 7) .init
        [.announce 7 1 [97], .native 7 (.triggerOpen 1 []), .native 7 (.flushPendingMessages 1),
         .native 7 (.flushPendingMessages 1), .native 7 (.incoming 1 ⟨[10], 1⟩),
         .native 7 (.flushPendingMessages 1), .native 7 (.flushPendingMessages 1),
         .native 7 (.incoming 1 ⟨[20], 1⟩), .native 7 (.flushPendingMessages 1),
         .native 7 (.flushPendingMessages 1), .processEvents, .advance [], .advance [],
         .advance [], .advance [], .advance [], .advance [], .native 7 (.flushPendingMessages 0),
         .native 7 (.flushPendingMessages 0), .native 7 (.flushPendingMessages 0),
         .native 7 (.flushPendingMessages 0), .native 7 (.flushPendingMessages 0),
         .native 7 (.flushPendingMessages 0), .native 7 (.flushPendingMessages 0),
         .native 7 (.flushPendingMessages 0), .native 7 (.flushPendingMessages 0), .advance [],
         .advance [], .advance [], .native 7 (.incoming 1 ⟨[30], 1⟩),
         .native 7 (.flushPendingMessages 1), .native 7 (.flushPendingMessages 1),
         .native 7 (.flushPendingMessages 1), .native 7 (.flushPendingMessages 1),
         .native 7 (.flushPendingMessages 1), .native 7 (.flushPendingMessages 1),
         .native 7 .close, .native 7 .resetCallbacks, .ret, .advance [], .advance [], .ret,
         .advance [], .ret, .advance [], .ret, .advance [], .ret, .exhausted] = some w ∧
      w.chan 7 = some c ∧ c.mIsClosed = true ∧ c.callbacksReset = true ∧ (∀ i, c.loop i = .idle) ∧
      w.announcements.queue = [] ∧ w.results.queue = [] ∧ w.stack = [] ∧
      c.arrived = [⟨[10], 1⟩, ⟨[20], 1⟩, ⟨[30], 1⟩] :=
    ⟨_, _, rfl, rfl, rfl, rfl, fun i => by rcases i with _ | _ | i <;> rfl, rfl, rfl, rfl, rfl⟩
  have hs : c.Settled := ⟨hloop, .inr hclosed, fun _ => hreset⟩
  have hd : w.Drained := ⟨hann, hres, by simp [hstack]⟩
  refine ⟨w, c, Path.of_exec hrun, hc, hclosed, ?_⟩
  rw [messages_delivered (Path.of_exec hrun) hc hs hd, harr]

/-- **A lost message.** The peer opens a channel, sends a message and closes it before the application
    polls: the message waits for a callback, `resetCallbacks` takes back that the channel is open, and the
    callback that the wrapper registers then flushes nothing. -/
theorem message_lost : ∃ w c, exec World.step Any .init
      [.announce 7 1 [97], .native 7 (.triggerOpen 1 []), .native 7 (.flushPendingMessages 1),
       .native 7 (.flushPendingMessages 1), .native 7 (.incoming 1 ⟨[10], 1⟩),
       .native 7 (.flushPendingMessages 1), .native 7 (.flushPendingMessages 1),
       .native 7 .close, .native 7 .resetCallbacks, .processEvents, .advance [], .advance [],
       .advance [], .advance [], .advance [], .advance [], .native 7 (.flushPendingMessages 0),
       .advance [], .advance [], .advance [], .ret, .advance [], .advance [], .ret, .exhausted] = some w ∧
    w.chan 7 = some c ∧ (∀ i, c.loop i = .idle) ∧ c.opened = true ∧ c.callbacksReset = true ∧
    w.stack = [] ∧ w.announcements.queue = [] ∧ w.results.queue = [] ∧
    c.arrived = [⟨[10], 1⟩] ∧ messages (w.handled 7) = [] :=
  ⟨_, _, rfl, rfl, fun i => by rcases i with _ | _ | i <;> rfl, rfl, rfl, rfl, rfl, rfl, rfl, rfl⟩

end HxDatachannel
