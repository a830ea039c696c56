import HxDatachannel.Channel.Effect

/-!
# `Channel.Lifecycle` — when the opening and the closing of a channel are reported

Which callback slots are set is a function of the stage of the wrapper, until `resetCallbacks`
(`Chan.Slots`). With it the lifecycle events of a lane are known at any time: the close is queued, or
stored until the wrapper registers its callback; the opening is queued iff the closures were installed when
it happened (`Reported`). An opening that comes before is counted in `lost`, for nothing replays it.
-/

namespace HxDatachannel

/-! ## Slots -/

/-- Which callbacks are set at which stage of the wrapper. -/
structure Chan.Slots (c : Chan) : Prop where
  openSet    : c.openCallback.callback = true → 2 ≤ c.wrapper.rank
  closedSet  : c.closedCallback.callback = true → 3 ≤ c.wrapper.rank
  errorSet   : c.errorCallback.callback = true → 4 ≤ c.wrapper.rank
  messageSet : c.messageCallback = true → 5 ≤ c.wrapper.rank
  lowSet     : c.bufferedAmountLowCallback.callback = true → 6 ≤ c.wrapper.rank
  openKept    : 2 ≤ c.wrapper.rank → c.callbacksReset = false → c.openCallback.callback = true
  closedKept  : 3 ≤ c.wrapper.rank → c.callbacksReset = false → c.closedCallback.callback = true
  messageKept : 5 ≤ c.wrapper.rank → c.callbacksReset = false → c.messageCallback = true
  resetClosed : c.callbacksReset = true → c.mIsClosed = true

theorem slots_fresh (pc : Nat) (label : Bytes) (incoming : Bool) :
    (Chan.fresh pc label incoming).Slots := by
  constructor <;> simp [Chan.fresh, StoredCallback.none, Wrapper.rank]

theorem Chan.Slots.enter {c : Chan} (h : c.Slots) (cell : Cell) : (c.enter cell).Slots := by
  cases cell <;> exact { h with }

/-- The slots after one more stage of the wrapper: the stage from `k` to `k + 1` may set a slot. -/
theorem ChanEffect.slots {d : Nat} {c c' : Chan} {a : ChanAct} {post : Option CallbackResult}
    (h : ChanEffect d c a c' post) (hc : c.Slots) : c'.Slots := by
  cases h with
  | triggerOpen =>
      exact { hc with
        openSet := by simpa using hc.openSet
        openKept := by simpa using hc.openKept }
  | close =>
      exact { hc with
        closedSet := by simpa using hc.closedSet
        closedKept := by simpa using hc.closedKept
        resetClosed := fun _ => rfl }
  | resetCallbacks hclosed =>
      constructor <;> simp [hclosed]
  | triggerError => exact { hc with errorSet := by simpa using hc.errorSet }
  | triggerBufferedAmountLow => exact { hc with lowSet := by simpa using hc.lowSet }
  | userPointer hw | setOpen hw | setClosed hw | setError hw | setMessage hw | install hw | announce hw =>
      obtain ⟨ho, hcl, he, hm, hl, hok, hck, hmk, hr⟩ := hc
      simp only [hw, Wrapper.rank] at ho hcl he hm hl hok hck hmk
      constructor <;> simp_all [Wrapper.rank]
  | setBufferedAmountLow hw =>
      obtain ⟨ho, hcl, he, hm, hl, hok, hck, hmk, hr⟩ := hc
      simp only [hw, Wrapper.rank] at ho hcl he hm hl hok hck hmk
      constructor <;> simp_all [Wrapper.rank]
  | _ => exact { hc with }

/-! ## Lifecycle events -/

/-- The closures that report the opening and the closing of a channel. -/
def Cell.isLifecycle : Cell → Bool
  | .openCb _ | .closedCb _ => true
  | _                       => false

/-- The openings and closings among the events `rs`, as the closures they are for. -/
def lifecycle (rs : List CallbackResult) : List Cell := (rs.map (·.closure)).filter Cell.isLifecycle

theorem lifecycle_append (rs ss : List CallbackResult) :
    lifecycle (rs ++ ss) = lifecycle rs ++ lifecycle ss := by
  simp [lifecycle]

/-- One report if `b`, else none. -/
def Cell.when (cell : Cell) (b : Bool) : List Cell := if b then [cell] else []

@[simp] theorem when_true (cell : Cell) : cell.when true = [cell] := rfl
@[simp] theorem when_false (cell : Cell) : cell.when false = [] := rfl

/-- What channel `d` went through natively, as the closures that should report it. -/
def Chan.transitions (d : Nat) (c : Chan) : List Cell :=
  (Cell.openCb d).when c.opened ++ (Cell.closedCb d).when c.mIsClosed

/-- 1 for an opening that comes before the closures are installed. -/
def Chan.missesOpen (c : Chan) : ChanAct → Nat
  | .triggerOpen _ _ => if c.installed then 0 else 1
  | _                => 0

/-- The lifecycle events of a lane, when `lost` openings came too early. -/
structure Reported (d : Nat) (lost : Nat) (l : Lane) : Prop where
  slots : l.chan.Slots
  queued : lifecycle l.events.pushed =
    (Cell.openCb d).when (l.chan.opened && lost == 0) ++
    (Cell.closedCb d).when (l.chan.mIsClosed && l.chan.closedCallback.stored.isNone)
  lostOpened : lost ≠ 0 → l.chan.opened = true
  stored : l.chan.closedCallback.stored ≠ none → l.chan.mIsClosed = true ∧ l.chan.wrapper.rank < 3

theorem reported_fresh (d pc : Nat) (label : Bytes) (incoming : Bool) :
    Reported d 0 ⟨.fresh pc label incoming, .empty⟩ :=
  ⟨slots_fresh pc label incoming, rfl, by simp, by simp [Chan.fresh, StoredCallback.none]⟩

/-- What an opening queues: its event if the closures are installed, else nothing. -/
theorem lifecycle_open {c : Chan} (h : c.Slots) (hclosed : c.mIsClosed = false) (d : Nat)
    (buffer : Bytes) :
    lifecycle ((c.openCallback.call ()).2.bind fun _ =>
      HxDatachannel.openCallback d c.installed c.label buffer).toList
      = (Cell.openCb d).when c.installed := by
  have hreset : c.callbacksReset = false := by
    by_contra hr
    rw [h.resetClosed (by simpa using hr)] at hclosed
    exact absurd hclosed (by simp)
  cases hinst : c.installed with
  | true =>
      have hrank : 2 ≤ c.wrapper.rank := by
        simp only [Chan.installed, decide_eq_true_eq] at hinst
        omega
      rw [StoredCallback.call_of_set (h.openKept hrank hreset)]
      simp only [Option.bind_some, HxDatachannel.openCallback, Bool.not_true, Bool.false_eq_true,
        if_false]
      split <;> rfl
  | false => cases (c.openCallback.call ()).2 <;> rfl

theorem lifecycle_close (c : Chan) (d : Nat) :
    lifecycle ((c.closedCallback.call ()).2.map fun _ => HxDatachannel.closedCallback d).toList
      = (Cell.closedCb d).when c.closedCallback.callback := by
  cases hcb : c.closedCallback.callback with
  | true => rw [StoredCallback.call_of_set hcb]; rfl
  | false => rw [StoredCallback.call_of_unset hcb]; rfl

/-- The steps that neither open nor close nor replay a close queue no lifecycle event. -/
theorem lifecycle_message (d : Nat) (m : Message) (b : Bool) :
    lifecycle (if b then some (HxDatachannel.messageCallback d m.data m.size) else none).toList
      = [] := by
  cases b with
  | true =>
      simp only [if_true, Option.toList_some, lifecycle, List.map_cons, List.map_nil,
        messageCallback_closure]
      rfl
  | false => rfl

theorem lifecycle_error (d : Nat) (e : Option Bytes) :
    lifecycle (e.map fun e => HxDatachannel.errorCallback d e).toList = [] := by
  cases e <;> rfl

theorem lifecycle_low (d : Nat) (u : Option Unit) :
    lifecycle (u.map fun _ => HxDatachannel.bufferedAmountLowCallback d).toList = [] := by
  cases u <;> rfl

/-- A step that leaves opening, closing and the stored close as they are, and queues no lifecycle
    event. -/
theorem Reported.quiet {d lost : Nat} {c c' : Chan} {q : Fifo CallbackResult}
    {post : Option CallbackResult} (h : Reported d lost ⟨c, q⟩) (hslots : c'.Slots)
    (hpost : lifecycle post.toList = []) (hopened : c'.opened = c.opened)
    (hclosed : c'.mIsClosed = c.mIsClosed)
    (hstored : c'.closedCallback.stored = c.closedCallback.stored)
    (hrank : c.closedCallback.stored ≠ none → c'.wrapper.rank < 3) :
    Reported d lost ⟨c', pushAll q post⟩ := by
  obtain ⟨-, hq, hlost, hst⟩ := h
  refine ⟨hslots, ?_, ?_, ?_⟩
  · rw [pushAll_pushed, lifecycle_append, hpost, List.append_nil, hopened, hclosed, hstored]
    exact hq
  · rw [hopened]
    exact hlost
  · rw [hstored, hclosed]
    intro hne
    exact ⟨(hst hne).1, hrank hne⟩

/-- **Step lemma.** What is queued and what is lost, after any step of the channel. -/
theorem reported_act {d lost : Nat} {c c' : Chan} {q : Fifo CallbackResult} {a : ChanAct}
    {post : Option CallbackResult} (h : Reported d lost ⟨c, q⟩) (heff : ChanEffect d c a c' post) :
    Reported d (lost + c.missesOpen a) ⟨c', pushAll q post⟩ := by
  have hslots := heff.slots h.slots
  have hst : c.closedCallback.stored ≠ none → c.mIsClosed = true ∧ c.wrapper.rank < 3 := h.stored
  cases heff with
  | triggerOpen hopened hclosed =>
      -- it opens once, so no earlier opening was lost
      have hlost : lost = 0 := by
        by_contra hne
        have := h.lostOpened hne
        simp only [hopened] at this
        exact absurd this (by simp)
      subst hlost
      refine ⟨hslots, ?_, fun _ => rfl, hst⟩
      rw [pushAll_pushed, lifecycle_append, lifecycle_open h.slots hclosed, h.queued]
      cases hinst : c.installed <;> simp [hopened, hclosed, hinst, Chan.missesOpen]
  | close hclosed =>
      -- it closes once: queued now if the callback is registered, stored otherwise
      have hnone : c.closedCallback.stored = none := by
        by_contra hne
        have := (hst hne).1
        rw [hclosed] at this
        exact absurd this (by simp)
      refine ⟨hslots, ?_, h.lostOpened, ?_⟩
      · rw [pushAll_pushed, lifecycle_append, lifecycle_close, h.queued]
        cases hcb : c.closedCallback.callback with
        | true => simp [StoredCallback.call_of_set hcb, hclosed, hnone, Chan.missesOpen]
        | false => simp [StoredCallback.call_of_unset hcb, hclosed, Chan.missesOpen]
      · intro hne
        refine ⟨rfl, ?_⟩
        by_contra hrank
        have hreset : c.callbacksReset = false := by
          by_contra hr
          rw [h.slots.resetClosed (by simpa using hr)] at hclosed
          exact absurd hclosed (by simp)
        have hcb := h.slots.closedKept (by simpa using hrank) hreset
        rw [StoredCallback.call_of_set hcb] at hne
        exact hne hnone
  | setClosed hw =>
      -- the one place where a stored close is replayed
      refine ⟨hslots, ?_, h.lostOpened, fun hne => absurd rfl hne⟩
      rw [pushAll_pushed, lifecycle_append, h.queued]
      cases hs : c.closedCallback.stored with
      | none => simp [hs, lifecycle, Chan.missesOpen]
      | some u =>
          have hclosed := (hst (by simp [hs])).1
          simp [hs, hclosed, Chan.missesOpen, lifecycle, HxDatachannel.closedCallback,
            Cell.isLifecycle]
  | deliver => exact h.quiet hslots (lifecycle_message _ _ _) rfl rfl rfl fun hne => (hst hne).2
  | triggerError => exact h.quiet hslots (lifecycle_error _ _) rfl rfl rfl fun hne => (hst hne).2
  | triggerBufferedAmountLow =>
      exact h.quiet hslots (lifecycle_low _ _) rfl rfl rfl fun hne => (hst hne).2
  | setError hw =>
      exact h.quiet hslots (lifecycle_error _ _) rfl rfl rfl fun hne =>
        absurd (hst hne).2 (by simp [hw, Wrapper.rank])
  | setBufferedAmountLow hw =>
      exact h.quiet hslots (lifecycle_low _ _) rfl rfl rfl fun hne =>
        absurd (hst hne).2 (by simp [hw, Wrapper.rank])
  | setMessage hw | install hw | announce hw =>
      exact h.quiet hslots rfl rfl rfl rfl fun hne =>
        absurd (hst hne).2 (by simp [hw, Wrapper.rank])
  | userPointer | setOpen =>
      exact h.quiet hslots rfl rfl rfl rfl fun _ => by simp [Wrapper.rank]
  | _ => exact h.quiet hslots rfl rfl rfl rfl fun hne => (hst hne).2

/-- Entering a closure changes nothing that was queued. -/
theorem reported_enter {d lost : Nat} {c : Chan} {q q' : Fifo CallbackResult} {r : CallbackResult}
    (h : Reported d lost ⟨c, q⟩) (hpop : q.pop = some (r, q')) :
    Reported d lost ⟨c.enter r.closure, q'⟩ := by
  have hpush := (Fifo.pop_eq_some hpop).2.2
  obtain ⟨hs, hq, hlost, hst⟩ := h
  refine ⟨hs.enter _, ?_, ?_, ?_⟩
  · rw [hpush]
    cases r.closure <;> exact hq
  · cases r.closure <;> exact hlost
  · cases r.closure <;> exact hst

/-- The openings in a step of a lane that come before the closures are installed. -/
def Lane.missesOpen (l : Lane) : LaneAct → Nat
  | .chan a => l.chan.missesOpen a
  | .enter  => 0

theorem reported_step {d lost : Nat} {l l' : Lane} {b : LaneAct} (h : Reported d lost l)
    (hstep : l.step d b = some l') : Reported d (lost + l.missesOpen b) l' := by
  rcases lane_cases hstep with ⟨a, c', post, rfl, heff, rfl⟩ | ⟨r, q, rfl, hpop, rfl⟩
  · exact reported_act h heff
  · exact reported_enter h hpop

/-- **Reported exactly once.** When the wrapper is complete and the channel's events are drained, the
    handlers entered are the transitions the channel went through iff no opening came too early. -/
theorem Reported.entered {d lost : Nat} {l : Lane} (h : Reported d lost l)
    (hq : l.events.Conserved) (hinst : l.chan.installed = true) (hdrained : l.events.queue = []) :
    lifecycle l.events.popped = l.chan.transitions d ↔ lost = 0 := by
  have hpop : l.events.popped = l.events.pushed := by
    simpa [Fifo.Conserved, hdrained] using hq
  have hnone : l.chan.closedCallback.stored = none := by
    by_contra hne
    have := (h.stored hne).2
    simp only [Chan.installed, decide_eq_true_eq] at hinst
    omega
  rw [hpop, h.queued, Chan.transitions]
  by_cases hlost : lost = 0
  · simp [hlost, hnone]
  · have hopened := h.lostOpened hlost
    have hne : (lost == 0) = false := by simpa using hlost
    cases hclosed : l.chan.mIsClosed <;> simp [hlost, hne, hopened, hnone]

end HxDatachannel
