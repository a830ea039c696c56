import HxDatachannel.Channel.Lifecycle

/-!
# `Channel.Messages` — where the messages of a channel are

A message that arrived is in the receive queue, in the hands of a flush loop, or queued as an event. Two
things can go wrong: `resetCallbacks` takes the callback away while messages are on their way, and of two
loops the later one may be faster. `Flushed` excludes both, and then nothing is lost or overtaken
(`Held`). A message can wait in the receive queue for good only if nobody is there to flush it: not after
the opening was triggered and the callback was registered (`Held.awake`).
-/

namespace HxDatachannel

/-! ## Messages among events -/

def Cell.isMessage : Cell → Bool
  | .msgCb _ => true
  | _        => false

/-- The messages among the events `rs`. -/
def messages (rs : List CallbackResult) : List CallbackResult := rs.filter (·.closure.isMessage)

theorem messages_append (rs ss : List CallbackResult) :
    messages (rs ++ ss) = messages rs ++ messages ss := List.filter_append ..

/-- The event that passes `m` to `onMessage` of channel `d`. -/
def Message.event (d : Nat) (m : Message) : CallbackResult :=
  HxDatachannel.messageCallback d m.data m.size

theorem messages_deliver (d : Nat) (m : Message) :
    messages (some (m.event d)).toList = [m.event d] := by
  rw [Option.toList_some, messages, List.filter_singleton, Message.event, messageCallback_closure]
  rfl

theorem messages_open (d : Nat) (u : Option Unit) (openCb : Bool) (label buffer : Bytes) :
    messages (u.bind fun _ => HxDatachannel.openCallback d openCb label buffer).toList = [] := by
  cases u with
  | none => rfl
  | some u =>
      simp only [Option.bind_some]
      cases hr : HxDatachannel.openCallback d openCb label buffer with
      | none => rfl
      | some r =>
          rw [Option.toList_some, messages, List.filter_singleton, (openCallback_closure hr).2]
          rfl

theorem messages_close (d : Nat) (u : Option Unit) :
    messages (u.map fun _ => HxDatachannel.closedCallback d).toList = [] := by
  cases u <;> rfl

theorem messages_error (d : Nat) (e : Option Bytes) :
    messages (e.map fun e => HxDatachannel.errorCallback d e).toList = [] := by
  cases e <;> rfl

theorem messages_low (d : Nat) (u : Option Unit) :
    messages (u.map fun _ => HxDatachannel.bufferedAmountLowCallback d).toList = [] := by
  cases u <;> rfl

/-! ## The discipline and the invariant -/

/-- `resetCallbacks` finds no message on its way, and a loop hands over a message only when no loop has an
    earlier one. -/
def Flushed (c : Chan) : ChanAct → Prop
  | .resetCallbacks         => c.mRecvQueue = [] ∧ c.hand = []
  | .flushPendingMessages i => c.loop i = .holding → c.hand.head?.map Prod.fst = some i
  | _                       => True

instance (c : Chan) (a : ChanAct) : Decidable (Flushed c a) :=
  match a with
  | .resetCallbacks         => inferInstanceAs (Decidable (_ ∧ _))
  | .flushPendingMessages _ => inferInstanceAs (Decidable (_ → _))
  | .triggerOpen _ _ | .close | .triggerError _ | .triggerBufferedAmountLow | .incoming _ _
  | .make _ => inferInstanceAs (Decidable True)

/-- Where the messages are. -/
structure Held (d : Nat) (l : Lane) : Prop where
  slots : l.chan.Slots
  account : messages l.events.pushed ++ l.chan.hand.map (fun p => p.2.event d) ++
    l.chan.mRecvQueue.map (Message.event d) = l.chan.arrived.map (Message.event d)
  holders : ∀ p ∈ l.chan.hand, l.chan.loop p.1 = .holding
  distinct : (l.chan.hand.map Prod.fst).Nodup
  callback : l.chan.hand ≠ [] → l.chan.messageCallback = true
  receiving : ∀ i, l.chan.loop i = .receiving →
    l.chan.messageCallback = true ∨ l.chan.callbacksReset = true
  reset : l.chan.callbacksReset = true → l.chan.mRecvQueue = [] ∧ l.chan.hand = []
  /-- Somebody flushes a receive queue that can be flushed. -/
  awake : l.chan.mRecvQueue ≠ [] → l.chan.mOpenTriggered = true → l.chan.messageCallback = true →
    ∃ i, l.chan.loop i ≠ .idle
  triggered : l.chan.opened = true → l.chan.callbacksReset = false → l.chan.mOpenTriggered = true
  /-- The Haxe thread flushes only in `rtcSetMessageCallback`. -/
  own : l.chan.wrapper.rank < 5 → l.chan.loop 0 = .idle

theorem held_fresh (d pc : Nat) (label : Bytes) (incoming : Bool) :
    Held d ⟨.fresh pc label incoming, .empty⟩ := by
  constructor <;> simp [Chan.fresh, Fifo.empty, messages]
  exact slots_fresh pc label incoming

/-- A step that touches neither the messages nor the loops, and queues no message. -/
theorem Held.quiet {d : Nat} {c c' : Chan} {q : Fifo CallbackResult} {post : Option CallbackResult}
    (h : Held d ⟨c, q⟩) (hslots : c'.Slots) (hpost : messages post.toList = [])
    (hqueue : c'.mRecvQueue = c.mRecvQueue) (hhand : c'.hand = c.hand)
    (harrived : c'.arrived = c.arrived) (hloop : c'.loop = c.loop)
    (htrig : c'.mOpenTriggered = c.mOpenTriggered) (hcb : c'.messageCallback = c.messageCallback)
    (hopened : c'.opened = c.opened) (hreset : c'.callbacksReset = c.callbacksReset)
    (hrank : c'.wrapper.rank < 5 → c.wrapper.rank < 5) : Held d ⟨c', pushAll q post⟩ := by
  obtain ⟨-, hacc, hhold, hdist, hcall, hrec, hres, hawake, htr, hown⟩ := h
  constructor
  · exact hslots
  · rw [pushAll_pushed, messages_append, hpost, List.append_nil, hhand, hqueue, harrived]
    exact hacc
  · rwa [hhand, hloop]
  · rwa [hhand]
  · rwa [hhand, hcb]
  · rwa [hloop, hcb, hreset]
  · rwa [hreset, hqueue, hhand]
  · rwa [hqueue, htrig, hcb, hloop]
  · rwa [hopened, hreset, htrig]
  · rw [hloop]
    exact fun hr => hown (hrank hr)

/-- A thread that is not holding a message is nowhere in `hand`. -/
theorem Held.not_hand {d : Nat} {l : Lane} (h : Held d l) {i : Nat} (hi : l.chan.loop i ≠ .holding) :
    ∀ p ∈ l.chan.hand, p.1 ≠ i := by
  intro p hp he
  exact hi (he ▸ h.holders p hp)

/-- The loops after thread `i` moved, for the threads in `hand`. -/
theorem Held.holders_update {d : Nat} {l : Lane} (h : Held d l) {i : Nat}
    (hi : l.chan.loop i ≠ .holding) (s : Loop) :
    ∀ p ∈ l.chan.hand, Function.update l.chan.loop i s p.1 = .holding := by
  intro p hp
  rw [Function.update_of_ne (h.not_hand hi p hp)]
  exact h.holders p hp

/-- The loops after thread `i` moved to a stage other than `receiving`. -/
theorem Held.receiving_update {d : Nat} {l : Lane} (h : Held d l) (i : Nat) {s : Loop}
    (hs : s ≠ .receiving) :
    ∀ j, Function.update l.chan.loop i s j = .receiving →
      l.chan.messageCallback = true ∨ l.chan.callbacksReset = true := by
  intro j hj
  by_cases hji : j = i
  · subst hji
    rw [Function.update_self] at hj
    exact absurd hj hs
  · rw [Function.update_of_ne hji] at hj
    exact h.receiving j hj

/-- The Haxe thread's loop, when another thread's moved or its own did. -/
theorem Held.own_update {d : Nat} {l : Lane} (h : Held d l) {i : Nat}
    (hi : i ≠ 0 ∨ l.chan.loop i ≠ .idle) (s : Loop) :
    l.chan.wrapper.rank < 5 → Function.update l.chan.loop i s 0 = .idle := by
  intro hrank
  have hidle := h.own hrank
  rw [Function.update_of_ne]
  · exact hidle
  · rintro rfl
    exact hi.elim (fun hi => hi rfl) (fun hi => hi hidle)

theorem exists_update {loop : Nat → Loop} {i : Nat} {s : Loop} (hs : s ≠ .idle) :
    ∃ j, Function.update loop i s j ≠ .idle :=
  ⟨i, by rwa [Function.update_self]⟩

/-- When the first message in `hand` is thread `i`'s, that is the one it finds and removes. -/
theorem hand_head {hand : List (Nat × Message)} {i j : Nat} {m : Message}
    (hhead : hand.head?.map Prod.fst = some i)
    (hfind : hand.find? (fun p => p.1 = i) = some (j, m)) :
    hand = (i, m) :: hand.eraseP (fun p => p.1 = i) := by
  cases hand with
  | nil => simp at hhead
  | cons p rest =>
      obtain ⟨k, m'⟩ := p
      simp only [List.head?_cons, Option.map_some, Option.some.injEq] at hhead
      subst hhead
      simp only [List.find?_cons, decide_true, Option.some.injEq, Prod.mk.injEq] at hfind
      rw [List.eraseP_cons_of_pos (by simp), hfind.2]

/-- The others in `hand` are of other threads. -/
theorem hand_erase {hand : List (Nat × Message)} {i : Nat} {m : Message}
    (hhand : hand = (i, m) :: hand.eraseP (fun p => p.1 = i)) (hdistinct : (hand.map Prod.fst).Nodup) :
    ((hand.eraseP fun p => p.1 = i).map Prod.fst).Nodup ∧
      ∀ p ∈ hand.eraseP fun p => p.1 = i, p.1 ≠ i := by
  rw [hhand, List.map_cons, List.nodup_cons] at hdistinct
  refine ⟨hdistinct.2, fun p hp he => hdistinct.1 ?_⟩
  exact List.mem_map.mpr ⟨p, hp, he⟩

theorem hand_append {hand : List (Nat × Message)} {i : Nat} (m : Message)
    (hdistinct : (hand.map Prod.fst).Nodup) (hnot : ∀ p ∈ hand, p.1 ≠ i) :
    ((hand ++ [(i, m)]).map Prod.fst).Nodup := by
  rw [List.map_append, List.nodup_append]
  refine ⟨hdistinct, by simp, ?_⟩
  intro k hk j hj he
  obtain ⟨p, hp, rfl⟩ := List.mem_map.mp hk
  simp only [List.map_cons, List.map_nil, List.mem_singleton] at hj
  exact hnot p hp (he.trans hj)

/-- **Step lemma.** -/
theorem held_act {d : Nat} {c c' : Chan} {q : Fifo CallbackResult} {a : ChanAct}
    {post : Option CallbackResult} (h : Held d ⟨c, q⟩) (hC : Flushed c a)
    (heff : ChanEffect d c a c' post) : Held d ⟨c', pushAll q post⟩ := by
  have hslots := heff.slots h.slots
  cases heff with
  | @triggerOpen i _ _ _ hloop hne =>
      have hi : c.loop i ≠ .holding := by rw [hloop]; simp
      refine ⟨hslots, ?_, h.holders_update hi _, h.distinct, h.callback,
        h.receiving_update i (by simp), h.reset, fun _ _ _ => exists_update (by simp),
        fun _ _ => rfl, h.own_update (.inl hne) _⟩
      rw [pushAll_pushed, messages_append, messages_open, List.append_nil]
      exact h.account
  | resetCallbacks =>
      -- by the discipline there is nothing left to lose
      obtain ⟨hqueue, hhand⟩ := hC
      refine ⟨hslots, h.account, h.holders, h.distinct, fun hne => absurd hhand hne,
        fun _ _ => .inr rfl, fun _ => ⟨hqueue, hhand⟩, fun hne => absurd hqueue hne, ?_, h.own⟩
      intro _ hr
      exact absurd hr (by simp)
  | @incoming i m hclosed hloop hne =>
      have hi : c.loop i ≠ .holding := by rw [hloop]; simp
      have hreset : c.callbacksReset ≠ true := by
        intro hr
        rw [h.slots.resetClosed hr] at hclosed
        exact absurd hclosed (by simp)
      refine ⟨hslots, ?_, h.holders_update hi _, h.distinct, h.callback,
        h.receiving_update i (by simp), fun hr => absurd hr hreset,
        fun _ _ _ => exists_update (by simp), h.triggered, h.own_update (.inl hne) _⟩
      show messages q.pushed ++ c.hand.map _ ++ (c.mRecvQueue ++ [m]).map _ = (c.arrived ++ [m]).map _
      rw [List.map_append, List.map_append, ← List.append_assoc, h.account]
  | @due i hloop =>
      have hi : c.loop i ≠ .holding := by rw [hloop]; simp
      refine ⟨hslots, h.account, h.holders_update hi _, h.distinct, h.callback,
        h.receiving_update i (by split <;> simp), h.reset, ?_, h.triggered,
        h.own_update (.inr (by rw [hloop]; simp)) _⟩
      intro _ htrig _
      simp only at htrig
      rw [if_pos htrig]
      exact exists_update (by simp)
  | @looping i hloop =>
      have hi : c.loop i ≠ .holding := by rw [hloop]; simp
      refine ⟨hslots, h.account, h.holders_update hi _, h.distinct, h.callback, ?_, h.reset, ?_,
        h.triggered, h.own_update (.inr (by rw [hloop]; simp)) _⟩
      · cases hcb : c.messageCallback with
        | true => exact fun _ _ => .inl rfl
        | false =>
            simp only [Bool.false_eq_true, if_false]
            intro j hj
            have := h.receiving_update i (s := .idle) (by simp) j hj
            simpa [hcb] using this
      · intro _ _ hcb
        simp only at hcb
        rw [if_pos hcb]
        exact exists_update (by simp)
  | @empty i hloop hqueue =>
      have hi : c.loop i ≠ .holding := by rw [hloop]; simp
      exact ⟨hslots, h.account, h.holders_update hi _, h.distinct, h.callback,
        h.receiving_update i (by simp), h.reset, fun hne => absurd hqueue hne, h.triggered,
        h.own_update (.inr (by rw [hloop]; simp)) _⟩
  | @receive i m rest hloop hqueue =>
      have hi : c.loop i ≠ .holding := by rw [hloop]; simp
      have hnot := h.not_hand hi
      have hreset : c.callbacksReset ≠ true := by
        intro hr
        have := (h.reset hr).1
        simp only [hqueue] at this
        exact absurd this (by simp)
      -- the loop tested the callback before, and no reset came between
      have hcb : c.messageCallback = true := (h.receiving i hloop).resolve_right hreset
      refine ⟨hslots, ?_, ?_, hand_append m h.distinct hnot, fun _ => hcb, h.receiving_update i (by simp),
        fun hr => absurd hr hreset, fun _ _ _ => exists_update (by simp), h.triggered,
        h.own_update (.inr (by rw [hloop]; simp)) _⟩
      · have hacc := h.account
        simp only [hqueue, List.map_cons] at hacc
        show messages q.pushed ++ (c.hand ++ [(i, m)]).map _ ++ rest.map _ = _
        rw [List.map_append, ← List.append_assoc, List.append_assoc]
        exact hacc
      · intro p hp
        rcases List.mem_append.mp hp with hp | hp
        · exact h.holders_update hi _ p hp
        · rw [List.mem_singleton.mp hp]
          exact Function.update_self ..
  | @deliver i j m hloop hfind =>
      -- by the discipline this thread has the earliest message on its way
      have hhand := hand_head (hC hloop) hfind
      have hne : c.hand ≠ [] := by rw [hhand]; simp
      have hcb : c.messageCallback = true := h.callback hne
      have hdist := hand_erase hhand h.distinct
      have hmem : ∀ p ∈ c.hand.eraseP fun p => p.1 = i, p ∈ c.hand := fun p hp =>
        List.mem_of_mem_eraseP hp
      refine ⟨hslots, ?_, ?_, hdist.1, fun _ => hcb, h.receiving_update i (by simp), ?_,
        fun _ _ _ => exists_update (by simp), h.triggered,
        h.own_update (.inr (by rw [hloop]; simp)) _⟩
      · have hacc := h.account
        simp only at hacc
        rw [hhand] at hacc
        rw [if_pos hcb, pushAll_pushed, messages_append]
        show messages q.pushed ++ messages (some (m.event d)).toList ++ _ ++ _ = _
        rw [messages_deliver, ← hacc]
        simp
      · intro p hp
        show Function.update c.loop i .looping p.1 = .holding
        rw [Function.update_of_ne (hdist.2 p hp)]
        exact h.holders p (hmem p hp)
      · intro hr
        exact absurd (h.reset hr).2 hne
  | setMessage hw =>
      have hrank : c.wrapper.rank < 5 := by rw [hw]; decide
      have hi : c.loop 0 ≠ .holding := by rw [h.own hrank]; simp
      exact ⟨hslots, h.account, h.holders_update hi _, h.distinct, fun _ => rfl,
        fun _ _ => .inl rfl, h.reset, fun _ _ _ => exists_update (by simp), h.triggered,
        fun hr => absurd hr (by simp [Wrapper.rank])⟩
  | close => exact h.quiet hslots (messages_close _ _) rfl rfl rfl rfl rfl rfl rfl rfl id
  | setClosed hw =>
      exact h.quiet hslots (messages_close _ _) rfl rfl rfl rfl rfl rfl rfl rfl
        fun _ => by rw [hw]; decide
  | triggerError => exact h.quiet hslots (messages_error _ _) rfl rfl rfl rfl rfl rfl rfl rfl id
  | setError hw =>
      exact h.quiet hslots (messages_error _ _) rfl rfl rfl rfl rfl rfl rfl rfl
        fun _ => by rw [hw]; decide
  | triggerBufferedAmountLow =>
      exact h.quiet hslots (messages_low _ _) rfl rfl rfl rfl rfl rfl rfl rfl id
  | setBufferedAmountLow =>
      exact h.quiet hslots (messages_low _ _) rfl rfl rfl rfl rfl rfl rfl rfl
        fun hr => absurd hr (by simp [Wrapper.rank])
  | userPointer hw | setOpen hw =>
      exact h.quiet hslots rfl rfl rfl rfl rfl rfl rfl rfl rfl fun _ => by rw [hw]; decide
  | install | announce =>
      exact h.quiet hslots rfl rfl rfl rfl rfl rfl rfl rfl rfl fun hr => absurd hr (by simp [Wrapper.rank])
  | ignored => exact h.quiet hslots rfl rfl rfl rfl rfl rfl rfl rfl rfl id

/-- Entering a closure moves no message that is not yet entered. -/
theorem held_enter {d : Nat} {c : Chan} {q q' : Fifo CallbackResult} {r : CallbackResult}
    (h : Held d ⟨c, q⟩) (hpop : q.pop = some (r, q')) : Held d ⟨c.enter r.closure, q'⟩ := by
  have hpush := (Fifo.pop_eq_some hpop).2.2
  obtain ⟨hs, hacc, hhold, hdist, hcall, hrec, hres, hawake, htr, hown⟩ := h
  have hs' := hs.enter r.closure
  refine ⟨hs', ?_, ?_, ?_, ?_, ?_, ?_, ?_, ?_, ?_⟩
  · rw [hpush]
    cases r.closure <;> exact hacc
  all_goals cases r.closure <;> assumption

/-- `Flushed`, for a step of a lane. -/
def Lane.Flushed (l : Lane) : LaneAct → Prop
  | .chan a => HxDatachannel.Flushed l.chan a
  | .enter  => True

theorem held_step {d : Nat} {l l' : Lane} {b : LaneAct} (h : Held d l) (hb : l.Flushed b)
    (hstep : l.step d b = some l') : Held d l' := by
  rcases lane_cases hstep with ⟨a, c', post, rfl, heff, rfl⟩ | ⟨r, q, rfl, hpop, rfl⟩
  · exact held_act h hb heff
  · exact held_enter h hpop

/-- The native side has nothing left to do: no thread flushes, the opening or the closing happened, and a
    close is complete. -/
structure Chan.Settled (c : Chan) : Prop where
  idle : ∀ i, c.loop i = .idle
  started : c.opened = true ∨ c.mIsClosed = true
  closed : c.mIsClosed = true → c.callbacksReset = true

/-- **Every message, once and in order.** When the native side is settled, the wrapper is complete and the
    channel's events are drained, the messages entered are the messages that arrived. -/
theorem Held.entered {d : Nat} {l : Lane} (h : Held d l) (hq : l.events.Conserved)
    (hsettled : l.chan.Settled) (hinst : l.chan.installed = true) (hdrained : l.events.queue = []) :
    messages l.events.popped = l.chan.arrived.map (Message.event d) := by
  have hpop : l.events.popped = l.events.pushed := by
    simpa [Fifo.Conserved, hdrained] using hq
  have hhand : l.chan.hand = [] := by
    apply List.eq_nil_iff_forall_not_mem.mpr
    intro p hp
    have := h.holders p hp
    rw [hsettled.idle p.1] at this
    exact absurd this (by simp)
  have hqueue : l.chan.mRecvQueue = [] := by
    by_contra hne
    have hreset : l.chan.callbacksReset = false := by
      by_contra hr
      exact hne (h.reset (by simpa using hr)).1
    have hopened : l.chan.opened = true := by
      rcases hsettled.started with ho | hc
      · exact ho
      · rw [hsettled.closed hc] at hreset
        exact absurd hreset (by simp)
    have hrank : 5 ≤ l.chan.wrapper.rank := by
      simp only [Chan.installed, decide_eq_true_eq] at hinst
      omega
    obtain ⟨i, hi⟩ := h.awake hne (h.triggered hopened hreset) (h.slots.messageKept hrank hreset)
    exact hi (hsettled.idle i)
  have hacc := h.account
  rw [hhand, hqueue, List.map_nil, List.map_nil, List.append_nil, List.append_nil] at hacc
  rw [hpop, hacc]

end HxDatachannel
