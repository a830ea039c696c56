import HxDatachannel.World.Effect
import HxDatachannel.Channel.Lifecycle

/-!
# `World.Tidy` — the shape of every reachable state

With one Haxe thread a wrapper is always made in one go: while it is being made, its construction is on
top of the stack, and before that, for an incoming channel, its announcement is queued (`Tidy.pending`).
Events come only from channels whose wrapper was begun (`Tidy.owned`). So whenever an event is taken out of
the queue, its closure is installed, and no run ever calls a closure that is NULL (`Tidy.live`).
-/

namespace HxDatachannel

open Lts

/-! ## What a step of a channel does to its wrapper -/

theorem ChanEffect.rank_le {d : Nat} {c c' : Chan} {a : ChanAct} {post : Option CallbackResult}
    (h : ChanEffect d c a c' post) : c.wrapper.rank ≤ c'.wrapper.rank := by
  cases h with
  | userPointer hw | setOpen hw | setClosed hw | setError hw | setMessage hw | install hw
  | announce hw => rw [hw]; simp [Wrapper.rank]
  | setBufferedAmountLow hw => rw [hw]; simp [Wrapper.rank]
  | _ => exact Nat.le_refl _

/-- Who the channel belongs to, its label and its side never change. -/
theorem ChanEffect.identity {d : Nat} {c c' : Chan} {a : ChanAct} {post : Option CallbackResult}
    (h : ChanEffect d c a c' post) :
    c'.pc = c.pc ∧ c'.label = c.label ∧ c'.incoming = c.incoming := by
  cases h <;> exact ⟨rfl, rfl, rfl⟩

/-- Native steps leave the wrapper alone. -/
theorem ChanEffect.wrapper_eq {d : Nat} {c c' : Chan} {a : ChanAct} {post : Option CallbackResult}
    (h : ChanEffect d c a c' post) (ha : a.isMake = false) : c'.wrapper = c.wrapper := by
  cases h with
  | userPointer | setOpen | setClosed | setError | setMessage | setBufferedAmountLow | install
  | announce => exact absurd ha (by simp [ChanAct.isMake])
  | _ => rfl

/-- A channel queues events only once its wrapper was begun. -/
theorem ChanEffect.posted {d : Nat} {c c' : Chan} {a : ChanAct} {r : CallbackResult}
    (h : ChanEffect d c a c' (some r)) (hc : c.Slots) : 0 < c'.wrapper.rank := by
  generalize hpost : some r = post at h
  cases h with
  | triggerOpen =>
      obtain ⟨u, hu, -⟩ := Option.bind_eq_some_iff.mp hpost.symm
      exact Nat.lt_of_lt_of_le (by decide) (hc.openSet (StoredCallback.callback_of_call hu))
  | close =>
      obtain ⟨u, hu, -⟩ := Option.map_eq_some_iff.mp hpost.symm
      exact Nat.lt_of_lt_of_le (by decide) (hc.closedSet (StoredCallback.callback_of_call hu))
  | triggerError =>
      obtain ⟨u, hu, -⟩ := Option.map_eq_some_iff.mp hpost.symm
      exact Nat.lt_of_lt_of_le (by decide) (hc.errorSet (StoredCallback.callback_of_call hu))
  | triggerBufferedAmountLow =>
      obtain ⟨u, hu, -⟩ := Option.map_eq_some_iff.mp hpost.symm
      exact Nat.lt_of_lt_of_le (by decide) (hc.lowSet (StoredCallback.callback_of_call hu))
  | deliver =>
      obtain ⟨hcb, -⟩ := Option.ite_none_right_eq_some.mp hpost.symm
      exact Nat.lt_of_lt_of_le (by decide) (hc.messageSet hcb)
  | setClosed | setError | setBufferedAmountLow => simp [Wrapper.rank]
  | _ => exact absurd hpost (by simp)

@[simp] theorem enter_wrapper (c : Chan) (cell : Cell) : (c.enter cell).wrapper = c.wrapper := by
  cases cell <;> rfl

@[simp] theorem enter_incoming (c : Chan) (cell : Cell) : (c.enter cell).incoming = c.incoming := by
  cases cell <;> rfl

theorem finished_installed {c : Chan} (h : c.finished = true) : c.installed = true := by
  simp only [Chan.finished, Bool.or_eq_true, decide_eq_true_eq, Bool.and_eq_true] at h
  rcases h with h | ⟨h, -⟩ <;> simp [Chan.installed, h, Wrapper.rank]

theorem finished_congr {c c' : Chan} (hw : c'.wrapper = c.wrapper) (hi : c'.incoming = c.incoming) :
    c'.finished = c.finished := by
  rw [Chan.finished, Chan.finished, hw, hi]

/-! ## What a step of the program does to the channels -/

/-- **Persistence rule.** Channels stay. What relates a channel to itself and to what a step of its own or a
    call of one of its closures makes of it, relates it to what a step of the program makes of it. -/
theorem ChanMove.related {R : Chan → Chan → Prop} (hrefl : ∀ c, R c c)
    (hact : ∀ d c a c' post, ChanEffect d c a c' post → R c c') (henter : ∀ c cell, R c (c.enter cell))
    {w w' : World} (h : ChanMove w w') {d : Nat} {c : Chan} (hc : w.chan d = some c) :
    ∃ c', w'.chan d = some c' ∧ R c c' := by
  have hset : ∀ e c₁ c₁', w.chan e = some c₁ → R c₁ c₁' →
      w'.chan = Function.update w.chan e (some c₁') → ∃ c', w'.chan d = some c' ∧ R c c' := by
    intro e c₁ c₁' hc₁ hR he
    rw [he]
    by_cases hd : d = e
    · subst hd
      obtain rfl := Option.some.inj (hc.symm.trans hc₁)
      exact ⟨c₁', Function.update_self .., hR⟩
    · exact ⟨c, by rw [Function.update_of_ne hd, hc], hrefl c⟩
  cases h with
  | same he => exact ⟨c, he ▸ hc, hrefl c⟩
  | @new e pc label incoming he h =>
      have hd : d ≠ e := by
        rintro rfl
        rw [he] at hc
        exact absurd hc (by simp)
      exact ⟨c, by rw [h, Function.update_of_ne hd, hc], hrefl c⟩
  | act hc₁ ha he => exact hset _ _ _ hc₁ (hact _ _ _ _ _ (chan_effect ha)) he
  | enter hc₁ he => exact hset _ _ _ hc₁ (henter _ _) he

/-- Channels stay, on their side, and their wrappers only progress. -/
theorem ChanMove.kept {w w' : World} (h : ChanMove w w') {d : Nat} {c : Chan}
    (hc : w.chan d = some c) :
    ∃ c', w'.chan d = some c' ∧ c.wrapper.rank ≤ c'.wrapper.rank ∧ c'.incoming = c.incoming :=
  h.related (R := fun c c' => c.wrapper.rank ≤ c'.wrapper.rank ∧ c'.incoming = c.incoming)
    (fun _ => ⟨Nat.le_refl _, rfl⟩) (fun _ _ _ _ _ heff => ⟨heff.rank_le, heff.identity.2.2⟩)
    (fun _ _ => ⟨by simp, by simp⟩) hc

/-- Who a channel belongs to, its label and its side. -/
theorem ChanMove.identity {w w' : World} (h : ChanMove w w') {d : Nat} {c : Chan}
    (hc : w.chan d = some c) :
    ∃ c', w'.chan d = some c' ∧ c'.pc = c.pc ∧ c'.label = c.label ∧ c'.incoming = c.incoming :=
  h.related (R := fun c c' => c'.pc = c.pc ∧ c'.label = c.label ∧ c'.incoming = c.incoming)
    (fun _ => ⟨rfl, rfl, rfl⟩) (fun _ _ _ _ _ heff => heff.identity)
    (fun c cell => by cases cell <;> exact ⟨rfl, rfl, rfl⟩) hc

/-! ## The invariant -/

/-- The wrapper of `c` is complete, or not begun with the announcement queued, or under construction on
    top of the stack. -/
def World.Pending (w : World) (d : Nat) (c : Chan) : Prop :=
  c.finished = true ∨ (c.wrapper = .unmade ∧ ∃ x ∈ w.announcements.queue, x.dc = d) ∨
    w.stack.head? = some (.making d)

/-- The shape of a reachable state. -/
structure Tidy (w : World) : Prop where
  live : w.nullCall = false
  conserved : w.results.Conserved
  log : w.entered.filterMap Entry.event = w.results.popped
  slots : w.AllChans fun _ c => c.Slots
  owned : ∀ r ∈ w.results.pushed, ∀ d, r.closure.channel = some d →
    ∃ c, w.chan d = some c ∧ 0 < c.wrapper.rank
  top : ∀ d, .making d ∉ w.stack.tail
  pending : w.AllChans w.Pending

theorem tidy_init : Tidy .init := by
  constructor <;> simp [World.init, World.AllChans, Fifo.empty, Fifo.Conserved]

/-- While no wrapper is under construction, every wrapper is complete or not begun. -/
theorem Tidy.calm {w : World} (h : Tidy w) (hs : ∀ d, w.stack.head? ≠ some (.making d)) {d : Nat}
    {c : Chan} (hc : w.chan d = some c) :
    c.finished = true ∨ (c.wrapper = .unmade ∧ ∃ x ∈ w.announcements.queue, x.dc = d) := by
  rcases h.pending d c hc with hp | hp | hp
  · exact .inl hp
  · exact .inr hp
  · exact absurd hp (hs d)

theorem Tidy.calm_installed {w : World} (h : Tidy w) (hs : ∀ d, w.stack.head? ≠ some (.making d))
    {r : CallbackResult} (hr : r ∈ w.results.pushed) {d : Nat} (hd : r.closure.channel = some d) :
    ∃ c, w.chan d = some c ∧ c.installed = true := by
  obtain ⟨c, hc, hrank⟩ := h.owned r hr d hd
  refine ⟨c, hc, ?_⟩
  rcases h.calm hs hc with hfin | ⟨hun, -⟩
  · exact finished_installed hfin
  · rw [hun] at hrank
    exact absurd hrank (by simp [Wrapper.rank])

/-- What is uncovered when the top of the stack goes is no construction. -/
theorem Tidy.rest_not_making {w : World} (h : Tidy w) {f : HaxeFrame} {rest : List HaxeFrame}
    (hs : w.stack = f :: rest) (d : Nat) : rest.head? ≠ some (.making d) := by
  intro he
  have htop := h.top d
  rw [hs, List.tail_cons] at htop
  exact htop (List.mem_of_mem_head? he)

theorem not_making_of_runs {stack : List HaxeFrame} (h : applicationRuns stack = true) (d : Nat) :
    stack.head? ≠ some (.making d) := by
  cases stack with
  | nil => simp
  | cons f rest => cases f <;> simp_all [applicationRuns]

/-- Nothing is under construction below the top. -/
theorem not_mem_of_head {stack : List HaxeFrame} {d : Nat} (hhead : stack.head? ≠ some (.making d))
    (htail : .making d ∉ stack.tail) : .making d ∉ stack := by
  cases stack with
  | nil => simp
  | cons f rest =>
      intro hmem
      rcases List.mem_cons.mp hmem with rfl | hmem
      · exact hhead rfl
      · exact htail hmem

/-! ## Every step keeps it -/

theorem connectionEvent_channel {cb : NativeCallback} {r : CallbackResult}
    (h : cb.connectionEvent = some r) : r.closure.channel = none := by
  cases cb with
  | description | candidate | stateChange | gatheringState =>
      obtain rfl := Option.some.inj h
      rfl
  | _ => exact absurd h (by simp [NativeCallback.connectionEvent])

/-- The channels after one of them was replaced. -/
theorem update_cases {f : Nat → Option Chan} {d e : Nat} {c c' : Chan}
    (h : Function.update f d (some c) e = some c') : (e = d ∧ c' = c) ∨ (e ≠ d ∧ f e = some c') := by
  by_cases he : e = d
  · subst he
    rw [Function.update_self] at h
    exact .inl ⟨rfl, (Option.some.inj h).symm⟩
  · rw [Function.update_of_ne he] at h
    exact .inr ⟨he, h⟩

/-- Only the stage and the side of a channel matter. -/
theorem World.Pending.congr {w : World} {d : Nat} {c c' : Chan} (h : w.Pending d c)
    (hw : c'.wrapper = c.wrapper) (hin : c'.incoming = c.incoming) : w.Pending d c' := by
  unfold World.Pending at h ⊢
  rwa [finished_congr hw hin, hw]

/-- The other wrappers, while `d`'s is under construction. -/
theorem Tidy.calm_other {w : World} (h : Tidy w) {d e : Nat} {rest : List HaxeFrame}
    (hs : w.stack = .making d :: rest) (he : e ≠ d) {c : Chan} (hc : w.chan e = some c) :
    c.finished = true ∨ (c.wrapper = .unmade ∧ ∃ x ∈ w.announcements.queue, x.dc = e) := by
  rcases h.pending e c hc with hp | hp | hp
  · exact .inl hp
  · exact .inr hp
  · rw [hs, List.head?_cons, Option.some.injEq, HaxeFrame.making.injEq] at hp
    exact absurd hp.symm he

theorem Tidy.pending_step {w w' : World} {a : WorldAct} (h : Tidy w) (heff : WorldEffect w a w') :
    w'.AllChans w'.Pending := by
  intro e c' hc'
  cases heff with
  | raise => exact h.pending e c' hc'
  | @announce d pc label hd =>
      -- a new incoming channel is not begun, and its announcement is queued with it
      rcases update_cases hc' with ⟨rfl, rfl⟩ | ⟨-, hc⟩
      · exact .inr (.inl ⟨rfl, dataChannelCallback pc e, by simp, rfl⟩)
      · rcases h.pending e c' hc with hp | ⟨hun, x, hx, hxe⟩ | hp
        · exact .inl hp
        · exact .inr (.inl ⟨hun, x, List.mem_append_left _ hx, hxe⟩)
        · exact .inr (.inr hp)
  | native ha hc hact =>
      rcases update_cases hc' with ⟨rfl, rfl⟩ | ⟨-, hc⟩
      · have heff := chan_effect hact
        exact (h.pending e _ hc).congr (heff.wrapper_eq ha) heff.identity.2.2
      · exact h.pending e c' hc
  | create hd hrun =>
      rcases update_cases hc' with ⟨rfl, rfl⟩ | ⟨-, hc⟩
      · exact .inr (.inr rfl)
      · exact (h.calm (not_making_of_runs hrun) hc).imp_right .inl
  | processEvents hrun => exact (h.calm (not_making_of_runs hrun) hc').imp_right .inl
  | @popAnnouncement buffer x q rest hs hpop =>
      rcases h.calm (by simp [hs]) hc' with hfin | ⟨hun, y, hy, rfl⟩
      · exact .inl hfin
      · -- the popped announcement is the wrapper's own, or its announcement is still queued
        rw [(Fifo.pop_eq_some hpop).1] at hy
        rcases List.mem_cons.mp hy with rfl | hy
        · exact .inr (.inr rfl)
        · exact .inr (.inl ⟨hun, y, hy, rfl⟩)
  | make hs hc hact hfin =>
      rcases update_cases hc' with ⟨rfl, rfl⟩ | ⟨hne, hc⟩
      · exact .inr (.inr (by rw [hs]; rfl))
      · exact (h.calm_other hs hne hc).imp_right .inl
  | created hs hc hact hfin hin =>
      rcases update_cases hc' with ⟨rfl, rfl⟩ | ⟨hne, hc⟩
      · exact .inl hfin
      · exact (h.calm_other hs hne hc).imp_right .inl
  | onDataChannel hs hc hact hfin hin =>
      rcases update_cases hc' with ⟨rfl, rfl⟩ | ⟨hne, hc⟩
      · exact .inl hfin
      · exact (h.calm_other hs hne hc).imp_right .inl
  | enterChannel hs _ _ hc =>
      rcases update_cases hc' with ⟨rfl, rfl⟩ | ⟨-, hc⟩
      · rcases h.calm (by simp [hs]) hc with hp | ⟨hun, hx⟩
        · exact .inl (by rwa [finished_congr (enter_wrapper _ _) (enter_incoming _ _)])
        · exact .inr (.inl ⟨by rwa [enter_wrapper], hx⟩)
      · exact (h.calm (by simp [hs]) hc).imp_right .inl
  | noAnnouncement hs | enterConnection hs | nullCall hs | empty hs | exhausted hs
  | retOnDataChannel hs | retHandling hs | throwOnDataChannel hs | throwHandling hs =>
      exact (h.calm (by simp [hs]) hc').imp_right .inl

/-- **Where a queued event comes from.** It was there before, it is one of a connection, or the channel that
    made the step queued it. -/
theorem WorldEffect.queued {w w' : World} {a : WorldAct} (heff : WorldEffect w a w')
    {r : CallbackResult} (hr : r ∈ w'.results.pushed) :
    r ∈ w.results.pushed ∨ r.closure.channel = none ∨
    ∃ d b c c', w.chan d = some c ∧ c.act d b = some (c', some r) ∧ w'.chan d = some c' := by
  -- the step of channel `d` queued what `post` says
  have hposted : ∀ {d b c c' post}, w.chan d = some c → c.act d b = some (c', post) →
      w'.chan = Function.update w.chan d (some c') → w'.results = pushAll w.results post →
      r ∈ w.results.pushed ∨ r.closure.channel = none ∨
      ∃ d b c c', w.chan d = some c ∧ c.act d b = some (c', some r) ∧ w'.chan d = some c' := by
    intro d b c c' post hc hact hchan hres
    rw [hres, pushAll_pushed] at hr
    rcases List.mem_append.mp hr with hr | hr
    · exact .inl hr
    · obtain rfl := Option.mem_toList.mp hr
      exact .inr (.inr ⟨d, b, c, c', hc, hact, by rw [hchan, Function.update_self]⟩)
  cases heff with
  | raise hcb =>
      rcases List.mem_append.mp hr with hr | hr
      · exact .inl hr
      · obtain rfl := List.mem_singleton.mp hr
        exact .inr (.inl (connectionEvent_channel hcb))
  | native _ hc hact => exact hposted hc hact rfl rfl
  | make _ hc hact => exact hposted hc hact rfl rfl
  | created _ hc hact => exact hposted hc hact rfl rfl
  | onDataChannel _ hc hact => exact hposted hc hact rfl rfl
  | enterConnection _ hpop | enterChannel _ hpop | nullCall _ hpop =>
      rw [(Fifo.pop_eq_some hpop).2.2] at hr
      exact .inl hr
  | _ => exact .inl hr

theorem Tidy.owned_step {w w' : World} {a : WorldAct} (h : Tidy w) (heff : WorldEffect w a w') :
    ∀ r ∈ w'.results.pushed, ∀ d, r.closure.channel = some d →
      ∃ c, w'.chan d = some c ∧ 0 < c.wrapper.rank := by
  intro r hr d hd
  rcases heff.queued hr with hr | hnone | ⟨e, b, c, c', hc, hact, hc'⟩
  · obtain ⟨c, hc, hrank⟩ := h.owned r hr d hd
    obtain ⟨c', hc', hle, -⟩ := heff.chanMove.kept hc
    exact ⟨c', hc', Nat.lt_of_lt_of_le hrank hle⟩
  · rw [hnone] at hd
    exact absurd hd (by simp)
  · have hchan := chan_effect hact
    obtain rfl := Option.some.inj (hchan.owner.symm.trans hd)
    exact ⟨c', hc', hchan.posted (h.slots _ _ hc)⟩

theorem Tidy.top_step {w w' : World} {a : WorldAct} (h : Tidy w) (heff : WorldEffect w a w') :
    ∀ d, .making d ∉ w'.stack.tail := by
  intro e
  have htail := h.top e
  cases heff with
  | create _ hrun => exact not_mem_of_head (not_making_of_runs hrun e) htail
  | processEvents hrun => exact not_mem_of_head (not_making_of_runs hrun e) htail
  | raise | announce | native | make | nullCall => exact htail
  | popAnnouncement hs | noAnnouncement hs | onDataChannel hs | enterConnection hs
  | enterChannel hs | retOnDataChannel hs | retHandling hs =>
      rw [hs] at htail
      exact htail
  | created hs | empty hs | exhausted hs | throwOnDataChannel hs | throwHandling hs =>
      rw [hs] at htail
      exact fun hmem => htail (List.mem_of_mem_tail hmem)

/-- No step calls a closure that is NULL. -/
theorem Tidy.no_nullCall {w : World} (h : Tidy w) {r : CallbackResult} {q : Fifo CallbackResult}
    {rest : List HaxeFrame} {d : Nat} (hs : w.stack = .draining :: rest)
    (hpop : w.results.pop = some (r, q)) (hcell : r.closure.channel = some d)
    (hc : ∀ c, w.chan d = some c → c.installed = false) : False := by
  obtain ⟨c, hchan, hinst⟩ := h.calm_installed (by simp [hs]) (h.conserved.mem_of_pop hpop) hcell
  rw [hc c hchan] at hinst
  exact absurd hinst (by simp)

@[simp] theorem pushAll_popped (q : Fifo CallbackResult) (post : Option CallbackResult) :
    (pushAll q post).popped = q.popped := by
  cases post <;> rfl

/-- The handlers entered are the events popped. -/
theorem Tidy.log_step {w w' : World} {a : WorldAct} (h : Tidy w) (heff : WorldEffect w a w') :
    w'.entered.filterMap Entry.event = w'.results.popped := by
  have hlog := h.log
  cases heff with
  | native | make | created => rwa [pushAll_popped]
  | onDataChannel =>
      rw [pushAll_popped, List.filterMap_append, hlog]
      exact List.append_nil _
  | enterConnection _ hpop =>
      rw [List.filterMap_append, hlog, (Fifo.pop_eq_some hpop).2.1]
      rfl
  | enterChannel _ hpop =>
      rw [List.filterMap_append, hlog, (Fifo.pop_eq_some hpop).2.1]
      rfl
  | nullCall hs hpop hcell hc => exact (h.no_nullCall hs hpop hcell hc).elim
  | _ => exact hlog

/-- **Step lemma.** -/
theorem tidy_step {w w' : World} {a : WorldAct} (h : Tidy w) (hstep : w.step a = some w') :
    Tidy w' := by
  have heff := world_effect hstep
  have hconserved : w'.results.Conserved := (Mailbox.conserved_path heff.mailbox).2 h.conserved
  refine ⟨?_, hconserved, h.log_step heff, ?_, h.owned_step heff, h.top_step heff,
    h.pending_step heff⟩
  · cases heff with
    | nullCall hs hpop hcell hc => exact (h.no_nullCall hs hpop hcell hc).elim
    | _ => exact h.live
  · exact allChans_step (P := fun _ c => c.Slots) (fun _ pc label inc => slots_fresh pc label inc)
      (fun _ _ _ _ _ hs heff => heff.slots hs) (fun _ _ cell hs => hs.enter cell) h.slots hstep

/-- **Every reachable state is tidy**; in particular no run ever calls a closure that is NULL. -/
theorem tidy_path {C : World → WorldAct → Prop} {w : World} (h : Path World.step C .init w) :
    Tidy w :=
  h.invariant (fun _ _ _ hw _ hstep => tidy_step hw hstep) tidy_init

end HxDatachannel
