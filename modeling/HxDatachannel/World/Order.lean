import HxDatachannel.World.Tidy

/-!
# `World.Order` — in which order handlers are entered

Announcements and events travel in two queues, and `process_events` empties the first before it looks at
the second. So the order between an announcement and an event is not kept (`announcement_overtakes`).
What is kept is the order within each of the two, and that an application meets a channel before it hears
of it (`order_kept`).
-/

namespace HxDatachannel

open Lts

/-! ## What was raised -/

/-- The connection of a closure. -/
def Cell.connection : Cell → Option Nat
  | .descCb pc | .candidateCb pc | .stateCb pc | .gatheringStateCb pc | .datachannelCb pc => some pc
  | .openCb _ | .closedCb _ | .errCb _ | .msgCb _ | .bufferLowCb _ => none

/-- The event is for a closure of connection `pc`. -/
def CallbackResult.ofConnection (pc : Nat) (r : CallbackResult) : Bool :=
  r.closure.connection = some pc

/-- The event is for a closure of some connection. -/
def CallbackResult.isConnection (r : CallbackResult) : Bool := r.closure.channel = none

/-- The event a step raises for a connection. -/
def WorldAct.raised : WorldAct → Option CallbackResult
  | .raise c => c.connectionEvent
  | _        => none

/-- The channel a step announces. -/
def WorldAct.announced : WorldAct → Option Nat
  | .announce d _ _ => some d
  | _               => none

/-- The channel that is introduced to the application by an entry. -/
def Entry.channel : Entry → Option Nat
  | .onDataChannel d => some d
  | .handler _       => none

/-! ## Events of connections -/

theorem filter_pushAll_act {d : Nat} {c c' : Chan} {a : ChanAct} {post : Option CallbackResult}
    (hact : c.act d a = some (c', post)) (q : Fifo CallbackResult) :
    (pushAll q post).pushed.filter CallbackResult.isConnection
      = q.pushed.filter CallbackResult.isConnection := by
  rw [pushAll_pushed, List.filter_append]
  cases post with
  | none => simp
  | some r => simp [CallbackResult.isConnection, (chan_effect hact).owner]

/-- A step queues the event it raises, and no other event of a connection. -/
theorem raised_step {w w' : World} {a : WorldAct} (heff : WorldEffect w a w') :
    w'.results.pushed.filter CallbackResult.isConnection
      = w.results.pushed.filter CallbackResult.isConnection ++ a.raised.toList := by
  cases heff with
  | @raise cb r hr =>
      have hch := connectionEvent_channel hr
      simp [WorldAct.raised, hr, CallbackResult.isConnection, hch]
  | native _ _ hact | make _ _ hact | created _ _ hact | onDataChannel _ _ hact =>
      simp only [WorldAct.raised, Option.toList_none, List.append_nil]
      exact filter_pushAll_act hact _
  | enterConnection _ hpop | enterChannel _ hpop | nullCall _ hpop =>
      simp [WorldAct.raised, (Fifo.pop_eq_some hpop).2.2]
  | _ => simp [WorldAct.raised]

/-! ## Announcements -/

theorem announced_step {w w' : World} {a : WorldAct} (heff : WorldEffect w a w') :
    w'.announcements.pushed.map DatachannelCallback.dc
      = w.announcements.pushed.map DatachannelCallback.dc ++ a.announced.toList := by
  cases heff with
  | announce => simp [WorldAct.announced, dataChannelCallback]
  | popAnnouncement _ hpop => simp [WorldAct.announced, (Fifo.pop_eq_some hpop).2.2]
  | _ => simp [WorldAct.announced]

/-- The channel whose announcement is popped and whose wrapper is under construction. -/
def World.introducing (w : World) : List Nat :=
  match w.stack with
  | .making d :: _ =>
      match w.chan d with
      | some c => if c.incoming then [d] else []
      | none   => []
  | _ => []

theorem introducing_eq_nil {w : World} (hs : ∀ d, w.stack.head? ≠ some (.making d)) :
    w.introducing = [] := by
  unfold World.introducing
  split
  · rename_i d rest he
    exact absurd (by rw [he]; rfl) (hs d)
  · rfl

theorem introducing_making {w : World} {d : Nat} {rest : List HaxeFrame} {c : Chan}
    (hs : w.stack = .making d :: rest) (hc : w.chan d = some c) :
    w.introducing = if c.incoming then [d] else [] := by
  rw [World.introducing, hs]
  simp only [hc]

/-- A state in which channels are introduced in order, and before their handlers are entered. -/
structure Introduced (w : World) : Prop where
  conserved : w.announcements.Conserved
  incoming : ∀ x ∈ w.announcements.queue, ∃ c, w.chan x.dc = some c ∧ c.incoming = true
  making : ∀ d, w.stack.head? = some (.making d) → ∃ c, w.chan d = some c
  order : w.announcements.popped.map DatachannelCallback.dc
    = w.entered.filterMap Entry.channel ++ w.introducing
  met : ∀ d c, w.chan d = some c → c.finished = true → c.incoming = true →
    .onDataChannel d ∈ w.entered
  first : ∀ pre r post, w.entered = pre ++ .handler r :: post → ∀ d, r.closure.channel = some d →
    ∃ c, w.chan d = some c ∧ (c.incoming = true → .onDataChannel d ∈ pre)

theorem introduced_init : Introduced .init := by
  constructor <;> simp [World.init, Fifo.empty, Fifo.Conserved, World.introducing]

/-- While the stack stays, so does the channel being introduced. -/
theorem Introduced.introducing_kept {w w' : World} (h : Introduced w) (hmove : ChanMove w w')
    (hstack : w'.stack = w.stack) : w'.introducing = w.introducing := by
  by_cases hs : ∃ d rest, w.stack = .making d :: rest
  · obtain ⟨d, rest, hs⟩ := hs
    obtain ⟨c, hc⟩ := h.making d (by rw [hs]; rfl)
    obtain ⟨c', hc', -, hin⟩ := hmove.kept hc
    rw [introducing_making hs hc, introducing_making (hstack.trans hs) hc', hin]
  · have hne : ∀ d, w.stack.head? ≠ some (.making d) := by
      intro d he
      obtain ⟨rest, hs'⟩ := List.head?_eq_some_iff.mp he
      exact hs ⟨d, rest, hs'⟩
    rw [introducing_eq_nil hne, introducing_eq_nil (hstack ▸ hne)]

theorem Introduced.order_step {w w' : World} {a : WorldAct} (ht : Tidy w) (h : Introduced w)
    (heff : WorldEffect w a w') :
    w'.announcements.popped.map DatachannelCallback.dc
      = w'.entered.filterMap Entry.channel ++ w'.introducing := by
  have hmove := heff.chanMove
  have horder := h.order
  cases heff with
  | raise | announce | native | make | nullCall =>
      rw [h.introducing_kept hmove rfl]
      exact horder
  | create hd hrun =>
      rw [introducing_eq_nil (not_making_of_runs hrun)] at horder
      rw [introducing_making rfl (Function.update_self ..)]
      exact horder
  | @popAnnouncement buffer x q rest hs hpop =>
      obtain ⟨hq, hpopped, -⟩ := Fifo.pop_eq_some hpop
      obtain ⟨c, hc, hin⟩ := h.incoming x (by rw [hq]; simp)
      have hintro : World.introducing { w with announcements := q, stack := .making x.dc :: rest }
          = [x.dc] := by
        refine (introducing_making (w := { w with announcements := q, stack := _ }) rfl hc).trans ?_
        rw [hin]
        rfl
      rw [introducing_eq_nil (by simp [hs]), List.append_nil] at horder
      rw [hintro, hpopped, List.map_append, horder]
      rfl
  | created hs hc hact hfin hin =>
      -- a channel of the application's own is not introduced
      have hin' := (chan_effect hact).identity.2.2
      rw [introducing_making hs hc, ← hin', hin] at horder
      rw [introducing_eq_nil (ht.rest_not_making hs)]
      exact horder
  | onDataChannel hs hc hact hfin hin =>
      have hin' := (chan_effect hact).identity.2.2
      rw [introducing_making hs hc, ← hin', hin] at horder
      rw [introducing_eq_nil (by simp), List.filterMap_append, List.append_nil]
      exact horder
  | enterConnection hs | enterChannel hs =>
      rw [introducing_eq_nil (by simp [hs])] at horder
      rw [introducing_eq_nil (by simp), List.filterMap_append, List.append_nil]
      exact horder
  | processEvents hrun =>
      rw [introducing_eq_nil (not_making_of_runs hrun)] at horder
      exact horder
  | noAnnouncement hs | retOnDataChannel hs | retHandling hs =>
      rw [introducing_eq_nil (by simp [hs])] at horder
      exact horder
  | empty hs | exhausted hs | throwOnDataChannel hs | throwHandling hs =>
      rw [introducing_eq_nil (by simp [hs])] at horder
      rw [introducing_eq_nil (ht.rest_not_making hs)]
      exact horder

theorem Introduced.met_step {w w' : World} {a : WorldAct} (h : Introduced w)
    (heff : WorldEffect w a w') :
    ∀ d c, w'.chan d = some c → c.finished = true → c.incoming = true →
      .onDataChannel d ∈ w'.entered := by
  intro e c' hc' hfin' hin'
  cases heff with
  | announce | create =>
      rcases update_cases hc' with ⟨rfl, rfl⟩ | ⟨-, hc⟩
      · exact absurd hfin' (by simp [Chan.finished, Chan.fresh])
      · exact h.met e c' hc hfin' hin'
  | native ha hc hact =>
      rcases update_cases hc' with ⟨rfl, rfl⟩ | ⟨-, hc₁⟩
      · have heff := chan_effect hact
        rw [finished_congr (heff.wrapper_eq ha) heff.identity.2.2] at hfin'
        rw [heff.identity.2.2] at hin'
        exact h.met e _ hc hfin' hin'
      · exact h.met e c' hc₁ hfin' hin'
  | make hs hc hact hfin =>
      rcases update_cases hc' with ⟨rfl, rfl⟩ | ⟨-, hc₁⟩
      · rw [hfin] at hfin'
        exact absurd hfin' (by simp)
      · exact h.met e c' hc₁ hfin' hin'
  | created hs hc hact hfin hin =>
      rcases update_cases hc' with ⟨rfl, rfl⟩ | ⟨-, hc₁⟩
      · rw [hin] at hin'
        exact absurd hin' (by simp)
      · exact h.met e c' hc₁ hfin' hin'
  | onDataChannel hs hc hact hfin hin =>
      rcases update_cases hc' with ⟨rfl, rfl⟩ | ⟨-, hc₁⟩
      · exact List.mem_append_right _ (List.mem_singleton.mpr rfl)
      · exact List.mem_append_left _ (h.met e c' hc₁ hfin' hin')
  | enterChannel _ _ _ hc =>
      rcases update_cases hc' with ⟨rfl, rfl⟩ | ⟨-, hc₁⟩
      · rw [finished_congr (enter_wrapper _ _) (enter_incoming _ _)] at hfin'
        rw [enter_incoming] at hin'
        exact List.mem_append_left _ (h.met e _ hc hfin' hin')
      · exact List.mem_append_left _ (h.met e c' hc₁ hfin' hin')
  | enterConnection => exact List.mem_append_left _ (h.met e c' hc' hfin' hin')
  | _ => exact h.met e c' hc' hfin' hin'

/-- A list with one more element, split at some element: at the new one or before. -/
theorem split_concat {α : Type} {xs pre post : List α} {x y : α} (h : xs ++ [x] = pre ++ y :: post) :
    (y = x ∧ pre = xs) ∨ ∃ post', xs = pre ++ y :: post' := by
  rcases List.eq_nil_or_concat post with rfl | ⟨post', z, rfl⟩
  · obtain ⟨hxs, hx⟩ := List.append_inj' h rfl
    exact .inl ⟨(List.singleton_inj.mp hx).symm, hxs.symm⟩
  · refine .inr ⟨post', ?_⟩
    have h' : xs ++ [x] = (pre ++ y :: post') ++ [z] := by simpa using h
    exact (List.append_inj' h' rfl).1

theorem Introduced.first_step {w w' : World} {a : WorldAct} (ht : Tidy w) (h : Introduced w)
    (heff : WorldEffect w a w') :
    ∀ pre r post, w'.entered = pre ++ .handler r :: post → ∀ d, r.closure.channel = some d →
      ∃ c, w'.chan d = some c ∧ (c.incoming = true → .onDataChannel d ∈ pre) := by
  have hold : ∀ pre r post, w.entered = pre ++ .handler r :: post → ∀ d,
      r.closure.channel = some d →
      ∃ c, w'.chan d = some c ∧ (c.incoming = true → .onDataChannel d ∈ pre) := by
    intro pre r post he d hd
    obtain ⟨c, hc, hmem⟩ := h.first pre r post he d hd
    obtain ⟨c', hc', -, hin⟩ := heff.chanMove.kept hc
    exact ⟨c', hc', fun hi => hmem (hin ▸ hi)⟩
  cases heff with
  | onDataChannel =>
      intro pre r post he d hd
      rcases split_concat he with ⟨hr, -⟩ | ⟨post', he'⟩
      · exact absurd hr (by simp)
      · exact hold pre r post' he' d hd
  | enterConnection _ _ hcell =>
      intro pre r post he d hd
      rcases split_concat he with ⟨hr, -⟩ | ⟨post', he'⟩
      · obtain rfl := Entry.handler.inj hr
        rw [hcell] at hd
        exact absurd hd (by simp)
      · exact hold pre r post' he' d hd
  | enterChannel hs hpop hcell hc hinst =>
      intro pre r post he d hd
      rcases split_concat he with ⟨hr, rfl⟩ | ⟨post', he'⟩
      · obtain rfl := Entry.handler.inj hr
        obtain rfl := Option.some.inj (hcell.symm.trans hd)
        refine ⟨_, Function.update_self .., ?_⟩
        intro hin
        rw [enter_incoming] at hin
        rcases ht.calm (by simp [hs]) hc with hfin | ⟨hun, -⟩
        · exact h.met _ _ hc hfin hin
        · exact absurd hinst (by simp [Chan.installed, hun, Wrapper.rank])
      · exact hold pre r post' he' d hd
  | _ => exact hold

/-- **Step lemma.** -/
theorem introduced_step {w w' : World} {a : WorldAct} (ht : Tidy w) (h : Introduced w)
    (hstep : w.step a = some w') : Introduced w' := by
  have heff := world_effect hstep
  have hmove := heff.chanMove
  have hconserved : w'.announcements.Conserved :=
    (Mailbox.conserved_path heff.mailbox).1 h.conserved
  refine ⟨hconserved, ?_, ?_, h.order_step ht heff, h.met_step heff, h.first_step ht heff⟩
  · have hold : ∀ x ∈ w.announcements.queue, ∃ c, w'.chan x.dc = some c ∧ c.incoming = true := by
      intro x hx
      obtain ⟨c, hc, hin⟩ := h.incoming x hx
      obtain ⟨c', hc', -, hin'⟩ := hmove.kept hc
      exact ⟨c', hc', hin'.trans hin⟩
    cases heff with
    | announce hd =>
        intro x hx
        rcases List.mem_append.mp hx with hx | hx
        · exact hold x hx
        · rw [List.mem_singleton.mp hx]
          exact ⟨_, Function.update_self .., rfl⟩
    | popAnnouncement _ hpop =>
        intro x hx
        exact hold x (by rw [(Fifo.pop_eq_some hpop).1]; exact List.mem_cons_of_mem _ hx)
    | _ => exact hold
  · have hold : ∀ d, w.stack.head? = some (.making d) → ∃ c, w'.chan d = some c := by
      intro d hs
      obtain ⟨c, hc⟩ := h.making d hs
      obtain ⟨c', hc', -, -⟩ := hmove.kept hc
      exact ⟨c', hc'⟩
    cases heff with
    | raise | announce | native | make | nullCall => exact hold
    | create =>
        intro d hs
        obtain rfl := HaxeFrame.making.inj (Option.some.inj hs)
        exact ⟨_, Function.update_self ..⟩
    | @popAnnouncement buffer x q rest hs hpop =>
        intro d hd
        obtain rfl := HaxeFrame.making.inj (Option.some.inj hd)
        obtain ⟨c, hc, -⟩ := h.incoming x (by rw [(Fifo.pop_eq_some hpop).1]; simp)
        exact ⟨c, hc⟩
    | created hs | empty hs | exhausted hs | throwOnDataChannel hs | throwHandling hs =>
        exact fun d hd => absurd hd (ht.rest_not_making hs d)
    | _ => exact fun d hd => absurd hd (by simp)

/-- **What order is kept.** In every run, and at any time: the handlers entered for the events of a
    connection are, in order, a beginning of the events raised for it; the channels passed to
    `onDataChannel` are, in order, a beginning of the channels announced; and a handler of an incoming
    channel is entered only after `onDataChannel` was for that channel. -/
theorem order_kept {as : List WorldAct} {w : World} (h : exec World.step Any .init as = some w) :
    (∀ pc, (w.entered.filterMap Entry.event).filter (CallbackResult.ofConnection pc) <+:
      (as.filterMap WorldAct.raised).filter (CallbackResult.ofConnection pc)) ∧
    w.entered.filterMap Entry.channel <+: as.filterMap WorldAct.announced ∧
    (∀ pre r post d c, w.entered = pre ++ .handler r :: post → r.closure.channel = some d →
      w.chan d = some c → c.incoming = true → .onDataChannel d ∈ pre) := by
  obtain ⟨ht, hi⟩ : Tidy w ∧ Introduced w :=
    (Path.of_exec h).invariant (I := fun w => Tidy w ∧ Introduced w)
      (fun _ _ _ hI _ hstep => ⟨tidy_step hI.1 hstep, introduced_step hI.1 hI.2 hstep⟩)
      ⟨tidy_init, introduced_init⟩
  refine ⟨?_, ?_, ?_⟩
  · intro pc
    have hraised := exec_log (L := fun w : World =>
      w.results.pushed.filter CallbackResult.isConnection)
      (fun _ _ _ hstep => raised_step (world_effect hstep)) h
    have hpopped : w.results.popped <+: w.results.pushed := ⟨w.results.queue, ht.conserved⟩
    have hconn : ∀ rs : List CallbackResult, rs.filter (CallbackResult.ofConnection pc)
        = (rs.filter CallbackResult.isConnection).filter (CallbackResult.ofConnection pc) := by
      intro rs
      rw [List.filter_filter]
      refine List.filter_congr fun r _ => ?_
      cases hcl : r.closure <;>
        simp [CallbackResult.ofConnection, CallbackResult.isConnection, Cell.connection,
          Cell.channel, hcl]
    have hpushed : (as.filterMap WorldAct.raised).filter (CallbackResult.ofConnection pc)
        = w.results.pushed.filter (CallbackResult.ofConnection pc) := by
      rw [hconn w.results.pushed, hraised]
      rfl
    rw [ht.log, hpushed]
    exact hpopped.filter _
  · have hann := exec_log (L := fun w : World =>
      w.announcements.pushed.map DatachannelCallback.dc)
      (fun _ _ _ hstep => announced_step (world_effect hstep)) h
    have hpopped : w.announcements.popped <+: w.announcements.pushed :=
      ⟨w.announcements.queue, hi.conserved⟩
    have hsub : w.entered.filterMap Entry.channel <+: w.announcements.popped.map (·.dc) :=
      ⟨w.introducing, hi.order.symm⟩
    have hlist : as.filterMap WorldAct.announced = w.announcements.pushed.map (·.dc) := by
      rw [hann]
      rfl
    rw [hlist]
    exact hsub.trans (hpopped.map _)
  · intro pre r post d c he hd hc hin
    obtain ⟨c', hc', hmem⟩ := hi.first pre r post he d hd
    obtain rfl := Option.some.inj (hc.symm.trans hc')
    exact hmem hin

/-- Two events and a channel of one connection; the channel closes before it is polled. -/
theorem order_kept_run : ∃ w, exec World.step Any .init
      [.raise (.stateChange 1 1), .announce 7 1 [97], .native 7 (.triggerOpen 1 []),
       .native 7 .close, .raise (.stateChange 1 2), .processEvents, .advance [], .advance [],
       .advance [], .advance [], .advance [], .advance [], .native 7 (.flushPendingMessages 0),
       .native 7 (.flushPendingMessages 0), .native 7 (.flushPendingMessages 0), .advance [],
       .advance [], .advance [], .ret, .advance [], .advance [], .ret, .advance [], .ret,
       .advance []] = some w ∧
    w.entered = [.onDataChannel 7, .handler (stateChangeCallback 1 1),
      .handler (stateChangeCallback 1 2), .handler (closedCallback 7)] ∧
    (w.entered.filterMap Entry.event).filter (CallbackResult.ofConnection 1) <+:
      [stateChangeCallback 1 1, stateChangeCallback 1 2] ∧
    w.entered.filterMap Entry.channel <+: [7] := by
  obtain ⟨w, hrun, hentered⟩ : ∃ w, exec World.step Any .init
      [.raise (.stateChange 1 1), .announce 7 1 [97], .native 7 (.triggerOpen 1 []),
       .native 7 .close, .raise (.stateChange 1 2), .processEvents, .advance [], .advance [],
       .advance [], .advance [], .advance [], .advance [], .native 7 (.flushPendingMessages 0),
       .native 7 (.flushPendingMessages 0), .native 7 (.flushPendingMessages 0), .advance [],
       .advance [], .advance [], .ret, .advance [], .advance [], .ret, .advance [], .ret,
       .advance []] = some w ∧
    w.entered = [.onDataChannel 7, .handler (stateChangeCallback 1 1),
      .handler (stateChangeCallback 1 2), .handler (closedCallback 7)] := ⟨_, rfl, rfl⟩
  obtain ⟨hevents, hchannels, -⟩ := order_kept hrun
  exact ⟨w, hrun, hentered, hevents 1, hchannels⟩

/-- **An announcement overtakes an event.** Connection 1 changes its state, then announces a channel, and
    the application polls: `onDataChannel` is entered first. -/
theorem announcement_overtakes : ∃ w, exec World.step Any .init
      [.raise (.stateChange 1 2), .announce 7 1 [97], .processEvents, .advance [], .advance [],
       .advance [], .advance [], .advance [], .advance [], .native 7 (.flushPendingMessages 0),
       .advance [], .advance [], .advance [], .ret, .advance [], .advance []] = some w ∧
    w.entered = [.onDataChannel 7, .handler (stateChangeCallback 1 2)] :=
  ⟨_, rfl, rfl⟩

end HxDatachannel
