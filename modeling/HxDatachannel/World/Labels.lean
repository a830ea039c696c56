import HxDatachannel.Binding.Text
import HxDatachannel.World.Tidy

/-!
# `World.Labels` — the label of a channel on both peers

A label goes to the library as a C string and over the wire to the other peer, and each of the two programs
reads it back from its library, into a buffer of 256 bytes: `process_events` for the name of an announced
channel, `openCallback` for the argument of `onOpen`. Only the field `name` of the creator does not go this
way. `labels_survive` says for which labels the four agree.
-/

namespace HxDatachannel

open Lts

/-! ## The four names -/

/-- `createDatachannel` and `createDatachannelWithOptions` pass the label on with `hl_to_utf8`. -/
def WorldAct.createDatachannel (d pc : Nat) (label : String) : WorldAct :=
  .create d pc (cstring (utf8 label))

/-- The native library hands the label of the other peer's channel on as it is. -/
def WorldAct.incomingDatachannel (d pc : Nat) (label : String) : WorldAct :=
  .announce d pc (cstring (utf8 label))

/-- The field `name` of the wrapper of `c`, where `label` is what the application created it with. -/
def Chan.name (c : Chan) (label : String) (buffer : Bytes) : Option String :=
  if c.incoming then fromUTF8 (announcedName c.label buffer) else some label

/-- The argument of `onOpen` when the closure in `openCb` is called for a node. -/
def onOpenName (r : CallbackResult) : Option String :=
  match r.callArgs with
  | some [.bytes n] => fromUTF8 n
  | _               => none

/-- The names that `onOpen` of channel `d` was called with. -/
def World.openNames (w : World) (d : Nat) : List (Option String) :=
  ((w.entered.filterMap Entry.event).filter (·.closure = .openCb d)).map onOpenName

/-- On channel `d` of `w`, every name there is equals `label`. -/
def World.Named (w : World) (d : Nat) (label : String) (buffer : Bytes) : Prop :=
  (∃ c, w.chan d = some c ∧ c.name label buffer = some label) ∧ ∀ n ∈ w.openNames d, n = some label

/-! ## Where the events of `onOpen` come from -/

/-- The two copies of the code agree: `onOpen` gets the name that an announcement of the channel would bring. -/
theorem onOpenName_eq {d : Nat} {openCb : Bool} {label buffer : Bytes} {r : CallbackResult}
    (h : openCallback d openCb label buffer = some r) :
    onOpenName r = fromUTF8 (announcedName label buffer) := by
  unfold openCallback at h
  split at h
  · exact absurd h (by simp)
  · unfold announcedName
    cases hb : rtcGetDataChannelLabel label buffer with
    | some b =>
        simp only [hb] at h
        obtain rfl := Option.some.inj h
        rfl
    | none =>
        simp only [hb] at h
        obtain rfl := Option.some.inj h
        rfl

theorem ChanEffect.opens {d e : Nat} {c c' : Chan} {a : ChanAct} {r : CallbackResult}
    (h : ChanEffect d c a c' (some r)) (hr : r.closure = .openCb e) :
    d = e ∧ ∃ openCb buffer, openCallback d openCb c.label buffer = some r := by
  have howner : d = e := by
    have hchannel := h.owner
    rw [hr] at hchannel
    exact (Option.some.inj hchannel).symm
  refine ⟨howner, ?_⟩
  obtain ⟨post, hpost⟩ : ∃ post, post = some r := ⟨_, rfl⟩
  rw [← hpost] at h
  cases h with
  | triggerOpen =>
      obtain ⟨-, -, hopen⟩ := Option.bind_eq_some_iff.mp hpost
      exact ⟨_, _, hopen⟩
  | close | setClosed | triggerError | setError | triggerBufferedAmountLow | setBufferedAmountLow =>
      obtain ⟨u, hu, rfl⟩ := Option.map_eq_some_iff.mp hpost
      exact absurd hr (by simp [closedCallback, errorCallback, bufferedAmountLowCallback])
  | deliver =>
      obtain ⟨-, hmsg⟩ := Option.ite_none_right_eq_some.mp hpost
      obtain rfl := Option.some.inj hmsg
      rw [messageCallback_closure] at hr
      exact absurd hr (by simp)
  | _ => exact absurd hpost (by simp)

/-- Every event for an `openCb` was queued by `openCallback` on the label of the channel. -/
def World.Opens (w : World) : Prop :=
  ∀ r ∈ w.results.pushed, ∀ d, r.closure = .openCb d →
    ∃ c, w.chan d = some c ∧ ∃ openCb buffer, openCallback d openCb c.label buffer = some r

theorem opens_init : World.init.Opens := fun _ hr => absurd hr (by simp [World.init, Fifo.empty])

theorem opens_step {w w' : World} {a : WorldAct} (h : w.Opens) (hstep : w.step a = some w') :
    w'.Opens := by
  have heff := world_effect hstep
  intro r hr d hd
  rcases heff.queued hr with hr | hnone | ⟨e, b, c, c', hc, hact, hc'⟩
  · obtain ⟨c, hc, openCb, buffer, hopen⟩ := h r hr d hd
    obtain ⟨c', hc', -, hlabel, -⟩ := heff.chanMove.identity hc
    exact ⟨c', hc', openCb, buffer, by rwa [hlabel]⟩
  · rw [hd] at hnone
    exact absurd hnone (by simp [Cell.channel])
  · have hchan := chan_effect hact
    obtain ⟨rfl, openCb, buffer, hopen⟩ := hchan.opens hd
    refine ⟨c', hc', openCb, buffer, ?_⟩
    rwa [hchan.identity.2.1]

/-- The channel that a step brought into being is there to the end, with its label and on its side. -/
theorem channel_kept {w w' : World} {d : Nat} {label : Bytes} {incoming : Bool}
    (h : Path World.step Any w w')
    (hc : ∃ c, w.chan d = some c ∧ c.label = label ∧ c.incoming = incoming) :
    ∃ c, w'.chan d = some c ∧ c.label = label ∧ c.incoming = incoming := by
  refine h.invariant (I := fun w => ∃ c, w.chan d = some c ∧ c.label = label ∧ c.incoming = incoming) ?_ hc
  rintro u a v ⟨c, hc, hl, hi⟩ - hstep
  obtain ⟨c', hc', -, hl', hi'⟩ := (world_effect hstep).chanMove.identity hc
  exact ⟨c', hc', hl'.trans hl, hi'.trans hi⟩

/-- What `onOpen` is called with, on a channel with label `label`. -/
theorem openNames_eq {w : World} (ht : Tidy w) (ho : w.Opens) {d : Nat} {c : Chan}
    (hc : w.chan d = some c) {n : Option String} (hn : n ∈ w.openNames d) :
    ∃ buffer, n = fromUTF8 (announcedName c.label buffer) := by
  obtain ⟨r, hr, rfl⟩ := List.mem_map.mp hn
  obtain ⟨hr, hd⟩ := List.mem_filter.mp hr
  rw [ht.log] at hr
  have hpushed : r ∈ w.results.pushed := by
    rw [← ht.conserved]
    exact List.mem_append_left _ hr
  obtain ⟨c', hc', openCb, buffer, hopen⟩ := ho r hpushed d (of_decide_eq_true hd)
  obtain rfl := Option.some.inj (hc.symm.trans hc')
  exact ⟨buffer, onOpenName_eq hopen⟩

/-! ## Both peers -/

/-- On a channel whose label fits, every name there is equals the label; on an incoming one, only then. -/
theorem named_iff {w : World} {d : Nat} {s : String} {incoming : Bool} (h0 : 0 ∉ utf8 s)
    (buffer : Bytes) (ht : Tidy w) (ho : w.Opens)
    (hchan : ∃ c, w.chan d = some c ∧ c.label = cstring (utf8 s) ∧ c.incoming = incoming) :
    ((utf8 s).length ≤ 255 → w.Named d s buffer) ∧
    (incoming = true → w.Named d s buffer → (utf8 s).length ≤ 255) := by
  obtain ⟨c, hc, hlabel, hin⟩ := hchan
  rw [cstring_eq_self.mpr h0] at hlabel
  constructor
  · intro hlen
    refine ⟨⟨c, hc, ?_⟩, ?_⟩
    · unfold Chan.name
      split
      · rw [hlabel]
        exact (announcedName_iff h0 buffer).mpr hlen
      · rfl
    · intro n hn
      obtain ⟨buffer', rfl⟩ := openNames_eq ht ho hc hn
      rw [hlabel]
      exact (announcedName_iff h0 buffer').mpr hlen
  · rintro rfl ⟨⟨c', hc', hname⟩, -⟩
    obtain rfl := Option.some.inj (hc.symm.trans hc')
    rw [Chan.name, if_pos hin, hlabel] at hname
    exact (announcedName_iff h0 buffer).mp hname

/-- **When a label survives.** One program creates a channel, the other is told of it: then the field `name` and
    whatever `onOpen` is called with, on both, equal the label iff its encoding has at most 255 bytes. -/
theorem labels_survive {as as' : List WorldAct} {w w' : World} {d d' pc pc' : Nat} {s : String}
    (buffer : Bytes) (h0 : 0 ∉ utf8 s)
    (h : exec World.step Any .init as = some w) (hcreate : .createDatachannel d pc s ∈ as)
    (h' : exec World.step Any .init as' = some w') (hincoming : .incomingDatachannel d' pc' s ∈ as') :
    (w.Named d s buffer ∧ w'.Named d' s buffer) ↔ (utf8 s).length ≤ 255 := by
  have hstate : ∀ {as w}, exec World.step Any .init as = some w → Tidy w ∧ w.Opens := fun h =>
    ⟨tidy_path (Path.of_exec h), (Path.of_exec h).invariant (fun _ _ _ hw _ hs => opens_step hw hs) opens_init⟩
  have hchan : ∃ c, w.chan d = some c ∧ c.label = cstring (utf8 s) ∧ c.incoming = false := by
    obtain ⟨u, v, -, hstep, hpath⟩ := exec_mem h hcreate
    apply channel_kept hpath
    cases world_effect hstep with
    | create => exact ⟨_, Function.update_self .., rfl, rfl⟩
  have hchan' : ∃ c, w'.chan d' = some c ∧ c.label = cstring (utf8 s) ∧ c.incoming = true := by
    obtain ⟨u, v, -, hstep, hpath⟩ := exec_mem h' hincoming
    apply channel_kept hpath
    cases world_effect hstep with
    | announce => exact ⟨_, Function.update_self .., rfl, rfl⟩
  have hcreator := named_iff h0 buffer (hstate h).1 (hstate h).2 hchan
  have hpeer := named_iff h0 buffer (hstate h').1 (hstate h').2 hchan'
  exact ⟨fun hboth => hpeer.2 rfl hboth.2, fun hlen => ⟨hcreator.1 hlen, hpeer.1 hlen⟩⟩

/-- The label `a`: the creator's channel opens and is polled, the peer is told of it. -/
theorem labels_survive_run : ∃ w w', exec World.step Any .init
      [.createDatachannel 7 1 "a", .advance [], .advance [], .advance [], .advance [], .advance [],
       .native 7 (.flushPendingMessages 0), .advance [], .advance [], .native 7 (.triggerOpen 1 []),
       .processEvents, .advance [], .advance []] = some w ∧
    exec World.step Any .init
      [.incomingDatachannel 9 2 "a", .processEvents, .advance [], .advance [], .advance [],
       .advance [], .advance [], .advance [], .native 9 (.flushPendingMessages 0), .advance [],
       .advance [], .advance []] = some w' ∧
    w'.entered = [.onDataChannel 9] ∧ (w.openNames 7).length = 1 ∧
    ((w.Named 7 "a" [] ∧ w'.Named 9 "a" []) ↔ (utf8 "a").length ≤ 255) := by
  obtain ⟨w, hrun, hopen⟩ : ∃ w, exec World.step Any .init
      [.createDatachannel 7 1 "a", .advance [], .advance [], .advance [], .advance [], .advance [],
       .native 7 (.flushPendingMessages 0), .advance [], .advance [], .native 7 (.triggerOpen 1 []),
       .processEvents, .advance [], .advance []] = some w ∧ (w.openNames 7).length = 1 :=
    ⟨_, rfl, rfl⟩
  obtain ⟨w', hrun', hentered⟩ : ∃ w', exec World.step Any .init
      [.incomingDatachannel 9 2 "a", .processEvents, .advance [], .advance [], .advance [],
       .advance [], .advance [], .advance [], .native 9 (.flushPendingMessages 0), .advance [],
       .advance [], .advance []] = some w' ∧ w'.entered = [.onDataChannel 9] := ⟨_, rfl, rfl⟩
  exact ⟨w, w', hrun, hrun', hentered, hopen,
    labels_survive [] (by decide) hrun List.mem_cons_self hrun' List.mem_cons_self⟩

theorem utf8_replicate (n : Nat) : utf8 (String.ofList (List.replicate n 'a')) = List.replicate n 97 := by
  rw [utf8, String.toList_ofList]
  induction n with
  | zero => rfl
  | succ n ih =>
      rw [List.replicate_succ, List.flatMap_cons, ih]
      rfl

/-- **A label that does not survive.** It has 256 bytes: on the peer the channel is called `unnamed`. -/
theorem label_lost : ∃ s w w', (utf8 s).length = 256 ∧ 0 ∉ utf8 s ∧
    exec World.step Any .init [.createDatachannel 7 1 s] = some w ∧
    exec World.step Any .init
      [.incomingDatachannel 9 2 s, .processEvents, .advance [], .advance [], .advance [],
       .advance [], .advance [], .advance [], .native 9 (.flushPendingMessages 0), .advance [],
       .advance [], .advance []] = some w' ∧
    w'.entered = [.onDataChannel 9] ∧ w.Named 7 s [] ∧ ¬w'.Named 9 s [] ∧
    ∃ c, w'.chan 9 = some c ∧ c.name s [] = fromUTF8 unnamed := by
  obtain ⟨s, hs⟩ : ∃ s, utf8 s = List.replicate 256 97 := ⟨_, utf8_replicate 256⟩
  have hlen : (utf8 s).length = 256 := by rw [hs, List.length_replicate]
  have h0 : 0 ∉ utf8 s := by
    rw [hs, List.mem_replicate]
    decide
  obtain ⟨w, hrun, hw⟩ : ∃ w, exec World.step Any .init [.createDatachannel 7 1 s] = some w ∧
      w.chan 7 = some (.fresh 1 (cstring (utf8 s)) false) ∧ w.entered = [] := ⟨_, rfl, rfl, rfl⟩
  obtain ⟨w', hrun', hentered, c, hc, hlabel, hin⟩ : ∃ w', exec World.step Any .init
      [.incomingDatachannel 9 2 s, .processEvents, .advance [], .advance [], .advance [],
       .advance [], .advance [], .advance [], .native 9 (.flushPendingMessages 0), .advance [],
       .advance [], .advance []] = some w' ∧ w'.entered = [.onDataChannel 9] ∧
      ∃ c, w'.chan 9 = some c ∧ c.label = cstring (utf8 s) ∧ c.incoming = true :=
    ⟨_, rfl, rfl, _, rfl, rfl, rfl⟩
  have hname : c.name s [] = fromUTF8 (announcedName (utf8 s) []) := by
    rw [Chan.name, if_pos hin, hlabel, cstring_eq_self.mpr h0]
  refine ⟨s, w, w', hlen, h0, hrun, hrun', hentered, ⟨⟨_, hw.1, rfl⟩, ?_⟩, ?_, c, hc, ?_⟩
  · simp [World.openNames, hw.2]
  · rintro ⟨⟨c', hc', hnamed⟩, -⟩
    obtain rfl := Option.some.inj (hc.symm.trans hc')
    rw [hname, announcedName_iff h0, hlen] at hnamed
    exact absurd hnamed (by decide)
  · rw [hname, announcedName, rtcGetDataChannelLabel, hlen, if_pos (by decide)]

end HxDatachannel
