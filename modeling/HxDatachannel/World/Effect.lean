import HxDatachannel.World.Defs
import HxDatachannel.Binding.Mailbox

/-!
# `World.Effect` — what one step of the program can do

The cases of `World.step` (`WorldEffect`, `world_effect`), and what follows from them at once: the
two queues of the program behave as the mailbox (`world_refines`), and a property of a channel that its own
steps preserve holds of every channel of the program (`allChans_step`).
-/

namespace HxDatachannel

open Lts

/-- The steps of the program, by case. -/
inductive WorldEffect (w : World) : WorldAct → World → Prop where
  | raise {cb r} (hr : cb.connectionEvent = some r) :
      WorldEffect w (.raise cb) { w with results := w.results.push r }
  | announce {d pc label} (hd : w.chan d = none) :
      WorldEffect w (.announce d pc label)
        { w with chan := Function.update w.chan d (some (.fresh pc label true))
                 announcements := w.announcements.push (dataChannelCallback pc d) }
  | native {d a c c' post} (ha : a.isMake = false) (hc : w.chan d = some c)
      (hact : c.act d a = some (c', post)) :
      WorldEffect w (.native d a)
        { w with chan := Function.update w.chan d (some c'), results := pushAll w.results post }
  | create {d pc label} (hd : w.chan d = none) (hrun : applicationRuns w.stack) :
      WorldEffect w (.create d pc label)
        { w with chan := Function.update w.chan d (some (.fresh pc label false))
                 stack := .making d :: w.stack }
  | processEvents (hrun : applicationRuns w.stack) :
      WorldEffect w .processEvents { w with stack := .announcing :: w.stack }
  | popAnnouncement {buffer x q rest} (hs : w.stack = .announcing :: rest)
      (hpop : w.announcements.pop = some (x, q)) :
      WorldEffect w (.advance buffer) { w with announcements := q, stack := .making x.dc :: rest }
  | noAnnouncement {buffer rest} (hs : w.stack = .announcing :: rest)
      (hpop : w.announcements.pop = none) :
      WorldEffect w (.advance buffer) { w with stack := .draining :: rest }
  | make {buffer d rest c c' post} (hs : w.stack = .making d :: rest) (hc : w.chan d = some c)
      (hact : c.act d (.make buffer) = some (c', post)) (hfin : c'.finished = false) :
      WorldEffect w (.advance buffer)
        { w with chan := Function.update w.chan d (some c'), results := pushAll w.results post }
  | created {buffer d rest c c' post} (hs : w.stack = .making d :: rest) (hc : w.chan d = some c)
      (hact : c.act d (.make buffer) = some (c', post)) (hfin : c'.finished = true)
      (hin : c'.incoming = false) :
      WorldEffect w (.advance buffer)
        { w with chan := Function.update w.chan d (some c'), results := pushAll w.results post,
                 stack := rest }
  | onDataChannel {buffer d rest c c' post} (hs : w.stack = .making d :: rest)
      (hc : w.chan d = some c) (hact : c.act d (.make buffer) = some (c', post))
      (hfin : c'.finished = true) (hin : c'.incoming = true) :
      WorldEffect w (.advance buffer)
        { w with chan := Function.update w.chan d (some c'), results := pushAll w.results post,
                 stack := .onDataChannel d :: rest, entered := w.entered ++ [.onDataChannel d] }
  | enterConnection {buffer r q rest} (hs : w.stack = .draining :: rest)
      (hpop : w.results.pop = some (r, q)) (hcell : r.closure.channel = none) :
      WorldEffect w (.advance buffer)
        { w with results := q, stack := .handling r :: rest, entered := w.entered ++ [.handler r] }
  | enterChannel {buffer r q rest d c} (hs : w.stack = .draining :: rest)
      (hpop : w.results.pop = some (r, q)) (hcell : r.closure.channel = some d)
      (hc : w.chan d = some c) (hinst : c.installed = true) :
      WorldEffect w (.advance buffer)
        { w with results := q, chan := Function.update w.chan d (some (c.enter r.closure)),
                 stack := .handling r :: rest, entered := w.entered ++ [.handler r] }
  | nullCall {buffer r q rest d} (hs : w.stack = .draining :: rest)
      (hpop : w.results.pop = some (r, q)) (hcell : r.closure.channel = some d)
      (hc : ∀ c, w.chan d = some c → c.installed = false) :
      WorldEffect w (.advance buffer) { w with results := q, nullCall := true }
  | empty {buffer rest} (hs : w.stack = .draining :: rest) (hpop : w.results.pop = none) :
      WorldEffect w (.advance buffer) { w with stack := rest }
  | exhausted {rest} (hs : w.stack = .draining :: rest) :
      WorldEffect w .exhausted { w with stack := rest }
  | retOnDataChannel {d rest} (hs : w.stack = .onDataChannel d :: rest) :
      WorldEffect w .ret { w with stack := .announcing :: rest }
  | retHandling {r rest} (hs : w.stack = .handling r :: rest) :
      WorldEffect w .ret { w with stack := .draining :: rest }
  | throwOnDataChannel {d rest} (hs : w.stack = .onDataChannel d :: rest) :
      WorldEffect w .throw { w with stack := rest }
  | throwHandling {r rest} (hs : w.stack = .handling r :: rest) :
      WorldEffect w .throw { w with stack := rest }

theorem chanStep_cases {w w' : World} {d : Nat} {a : ChanAct} (h : w.chanStep d a = some w') :
    ∃ c c' post, w.chan d = some c ∧ c.act d a = some (c', post) ∧
      w' = { w with chan := Function.update w.chan d (some c'),
                    results := pushAll w.results post } := by
  unfold World.chanStep at h
  split at h
  · rename_i c hc
    obtain ⟨⟨c', post⟩, hact, rfl⟩ := Option.map_eq_some_iff.mp h
    exact ⟨c, c', post, hc, hact, rfl⟩
  · exact absurd h (by simp)

theorem enter_cases {w : World} {r : CallbackResult} {q : Fifo CallbackResult}
    {rest : List HaxeFrame} {buffer : Bytes} (hs : w.stack = .draining :: rest)
    (hpop : w.results.pop = some (r, q)) :
    WorldEffect w (.advance buffer) ({ w with results := q }.enter r rest) := by
  unfold World.enter
  split
  · rename_i hcell
    exact .enterConnection hs hpop hcell
  · rename_i d hcell
    split
    · rename_i c hc
      split
      · rename_i hinst
        exact .enterChannel hs hpop hcell hc hinst
      · rename_i hinst
        refine .nullCall hs hpop hcell ?_
        intro c' hc'
        obtain rfl := Option.some.inj (hc.symm.trans hc')
        simpa using hinst
    · rename_i hc
      refine .nullCall hs hpop hcell ?_
      intro c' hc'
      exact absurd (hc.symm.trans hc') (by simp)

theorem advance_effect {w w' : World} {buffer : Bytes} (h : w.advance buffer = some w') :
    WorldEffect w (.advance buffer) w' := by
  unfold World.advance at h
  split at h
  · rename_i rest hs
    split at h
    · rename_i x q hpop
      obtain rfl := Option.some.inj h
      exact .popAnnouncement hs hpop
    · rename_i hpop
      obtain rfl := Option.some.inj h
      exact .noAnnouncement hs hpop
  · rename_i d rest hs
    obtain ⟨u, hu, rfl⟩ := Option.map_eq_some_iff.mp h
    obtain ⟨c, c', post, hc, hact, rfl⟩ := chanStep_cases hu
    simp only [World.made, Function.update_self]
    split
    · rename_i hfin
      split
      · rename_i hin
        exact .onDataChannel hs hc hact hfin hin
      · rename_i hin
        exact .created hs hc hact hfin (by simpa using hin)
    · rename_i hfin
      exact .make hs hc hact (by simpa using hfin)
  · rename_i rest hs
    split at h
    · rename_i r q hpop
      obtain rfl := Option.some.inj h
      exact enter_cases hs hpop
    · rename_i hpop
      obtain rfl := Option.some.inj h
      exact .empty hs hpop
  · exact absurd h (by simp)

/-- **Inversion.** Every step of the program is one of the cases of `WorldEffect`. -/
theorem world_effect {w w' : World} {a : WorldAct} (h : w.step a = some w') :
    WorldEffect w a w' := by
  unfold World.step at h
  split at h
  · exact absurd h (by simp)
  · cases a with
    | raise c =>
        obtain ⟨r, hr, rfl⟩ := Option.map_eq_some_iff.mp h
        exact .raise hr
    | announce d pc label =>
        simp only [Option.ite_none_left_eq_some, Option.some.injEq] at h
        obtain ⟨hd, rfl⟩ := h
        exact .announce (by simpa using hd)
    | native d a =>
        simp only [Option.ite_none_left_eq_some] at h
        obtain ⟨ha, h⟩ := h
        obtain ⟨c, c', post, hc, hact, rfl⟩ := chanStep_cases h
        exact .native (by simpa using ha) hc hact
    | create d pc label =>
        simp only [Option.ite_none_left_eq_some, not_or, Option.some.injEq] at h
        obtain ⟨⟨hd, hrun⟩, rfl⟩ := h
        exact .create (by simpa using hd) (by simpa using hrun)
    | processEvents =>
        simp only [Option.ite_none_right_eq_some, Option.some.injEq] at h
        obtain ⟨hrun, rfl⟩ := h
        exact .processEvents hrun
    | advance buffer => exact advance_effect h
    | exhausted =>
        simp only at h
        split at h
        · rename_i rest hs
          obtain rfl := Option.some.inj h
          exact .exhausted hs
        · exact absurd h (by simp)
    | ret =>
        simp only at h
        split at h
        · rename_i d rest hs
          obtain rfl := Option.some.inj h
          exact .retOnDataChannel hs
        · rename_i r rest hs
          obtain rfl := Option.some.inj h
          exact .retHandling hs
        · exact absurd h (by simp)
    | throw =>
        simp only at h
        split at h
        · rename_i d rest hs
          obtain rfl := Option.some.inj h
          exact .throwOnDataChannel hs
        · rename_i r rest hs
          obtain rfl := Option.some.inj h
          exact .throwHandling hs
        · exact absurd h (by simp)

/-! ## The program refines the mailbox -/

def World.mailbox (w : World) : Mailbox := ⟨w.announcements, w.results⟩

theorem pushAll_path (m : Mailbox) (post : Option CallbackResult) :
    Path Mailbox.step Any m { m with results := pushAll m.results post } := by
  cases post with
  | none => exact Lts.Path.refl _
  | some r => exact m.path_post r

theorem WorldEffect.mailbox {w w' : World} {a : WorldAct} (h : WorldEffect w a w') :
    Path Mailbox.step Any w.mailbox w'.mailbox := by
  cases h with
  | @raise cb r hr => exact w.mailbox.path_post r
  | @announce d pc label hd => exact w.mailbox.path_announce _
  | native | make | created | onDataChannel => exact pushAll_path w.mailbox _
  | popAnnouncement _ hpop => exact Mailbox.path_takeAnnouncement (m := w.mailbox) hpop
  | enterConnection _ hpop => exact Mailbox.path_takeResult (m := w.mailbox) hpop
  | enterChannel _ hpop => exact Mailbox.path_takeResult (m := w.mailbox) hpop
  | nullCall _ hpop => exact Mailbox.path_takeResult (m := w.mailbox) hpop
  | _ => exact Lts.Path.refl _

/-- **The program refines the mailbox.** -/
theorem world_refines {C : World → WorldAct → Prop} {w w' : World} (h : Path World.step C w w') :
    Path Mailbox.step Any w.mailbox w'.mailbox := by
  have hsim : ∃ m, Path Mailbox.step Any w.mailbox m ∧ w'.mailbox = m := by
    refine h.simulate (R := fun w m => w.mailbox = m) ?_ rfl
    rintro w a w' m rfl - hstep
    exact ⟨w'.mailbox, (world_effect hstep).mailbox, rfl⟩
  obtain ⟨m, hm, rfl⟩ := hsim
  exact hm

/-! ## Properties of single channels -/

/-- The channels after a step: one of them made a step of its own, was entered or is new. -/
inductive ChanMove (w w' : World) : Prop where
  | same (h : w'.chan = w.chan)
  | new {d pc label incoming} (hd : w.chan d = none)
      (h : w'.chan = Function.update w.chan d (some (.fresh pc label incoming)))
  | act {d a c c' post} (hc : w.chan d = some c) (hact : c.act d a = some (c', post))
      (h : w'.chan = Function.update w.chan d (some c'))
  | enter {d c cell} (hc : w.chan d = some c)
      (h : w'.chan = Function.update w.chan d (some (c.enter cell)))

theorem WorldEffect.chanMove {w w' : World} {a : WorldAct} (h : WorldEffect w a w') :
    ChanMove w w' := by
  cases h with
  | announce hd => exact .new hd rfl
  | create hd => exact .new hd rfl
  | native _ hc hact => exact .act hc hact rfl
  | make _ hc hact => exact .act hc hact rfl
  | created _ hc hact => exact .act hc hact rfl
  | onDataChannel _ hc hact => exact .act hc hact rfl
  | enterChannel _ _ _ hc => exact .enter hc rfl
  | _ => exact .same rfl

/-- The channels of `w` have property `P`. -/
def World.AllChans (P : Nat → Chan → Prop) (w : World) : Prop :=
  ∀ d c, w.chan d = some c → P d c

/-- **Channel rule.** What a new channel has, and every step of a channel and every call of one of its
    closures preserves, all channels have after a step of the program. -/
theorem allChans_step {P : Nat → Chan → Prop} (hfresh : ∀ d pc label inc, P d (.fresh pc label inc))
    (hact : ∀ d c a c' post, P d c → ChanEffect d c a c' post → P d c')
    (henter : ∀ d c cell, P d c → P d (c.enter cell)) {w w' : World} {a : WorldAct}
    (h : w.AllChans P) (hstep : w.step a = some w') : w'.AllChans P := by
  have hset : ∀ d c', P d c' → w'.chan = Function.update w.chan d (some c') → w'.AllChans P := by
    intro d c' hP he e c hc
    rw [he] at hc
    by_cases hd : e = d
    · subst hd
      rw [Function.update_self] at hc
      exact Option.some.inj hc ▸ hP
    · rw [Function.update_of_ne hd] at hc
      exact h e c hc
  cases (world_effect hstep).chanMove with
  | same he =>
      intro d c hc
      exact h d c (he ▸ hc)
  | new hd he => exact hset _ _ (hfresh _ _ _ _) he
  | act hc ha he => exact hset _ _ (hact _ _ _ _ _ (h _ _ hc) (chan_effect ha)) he
  | enter hc he => exact hset _ _ (henter _ _ _ (h _ _ hc)) he

end HxDatachannel
