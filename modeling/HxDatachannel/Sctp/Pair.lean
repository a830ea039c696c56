import HxDatachannel.Base.Link
import HxDatachannel.Sctp.Recv

/-!
# `Sctp.Pair` — from one transport to the other

Transport `a` sends to transport `b`. What the socket of `a` took is on the way until it arrives at the
socket of `b`, for each stream over a `Link`: a datagram that is unordered may overtake, one with a policy
may be lost. It arrives in chunks, which `b` may read before the last of them is there, and between which
notifications may come. Both transports take any steps in between.

`end_to_end` says what comes out of `b`, against what was put into `a`.
-/

namespace HxDatachannel.Sctp

open Lts Framing Link

structure Pair where
  a      : Transport
  b      : Transport
  wire   : Nat → List Datagram
  /-- The chunks of a message of which the socket of `b` does not have all yet. -/
  coming : List Chunk

def Pair.init : Pair := { a := .init, b := .init, wire := fun _ => [], coming := [] }

/-- `data` cut behind the given numbers of bytes, as chunks of one message. -/
def cut (info : Nat × Nat) : Bytes → List Nat → List Chunk
  | data, []      => [{ data, notification := false, eor := true, info := some info }]
  | data, n :: ns =>
      if 0 < n ∧ n < data.length then
        { data := data.take n, notification := false, eor := false, info := some info } :: cut info (data.drop n) ns
      else cut info data ns

/-- The datagrams among calls. -/
def datagrams (calls : List Call) : List Datagram :=
  calls.filterMap fun
    | .sendv d => some d
    | _        => none

/-- The datagrams that were sent on a stream. -/
def Transport.sentOn (σ : Transport) (stream : Nat) : List Datagram :=
  (datagrams σ.calls).filter fun d => d.sid = stream

def Datagram.reliable (d : Datagram) : Bool := d.policy = .SCTP_PR_SCTP_NONE

/-- Nothing on a stream is a barrier for its messages. -/
abbrev mayArrive (w : List Datagram) (k : Nat) : Bool :=
  Link.arrives (fun _ => false) Datagram.unordered w k

inductive PairAct where
  /-- A step of `a`. -/
  | a (act : Act)
  /-- A step of `b`. -/
  | b (act : Act)
  /-- The `k`-th datagram on the way on a stream begins to arrive, cut in some way. -/
  | carry (stream k : Nat) (sizes : List Nat)
  /-- The next chunk of it is in the socket. -/
  | chunk
  /-- A chunk of a notification is in the socket. -/
  | notify (data : Bytes) (eor : Bool)
  /-- The `k`-th datagram on the way on a stream is given up. -/
  | lose (stream k : Nat)
deriving DecidableEq, Repr

def Act.isArrive : Act → Bool
  | .arrive _ => true
  | _         => false

/-- One step of the pair; `none` when it is not enabled. -/
def pairStep (cfgA cfgB : Config) (p : Pair) : PairAct → Option Pair
  | .a act =>
      (step cfgA p.a act).map fun a =>
        { p with a, wire := fun stream => p.wire stream ++ (a.sentOn stream).drop (p.a.sentOn stream).length }
  | .b act => if act.isArrive then none else (step cfgB p.b act).map fun b => { p with b }
  | .carry stream k sizes =>
      match (p.wire stream)[k]? with
      | none   => none
      | some d =>
          if p.coming = [] ∧ mayArrive (p.wire stream) k then
            some { p with
              wire := Function.update p.wire stream ((p.wire stream).eraseIdx k)
              coming := cut (d.sid, d.ppid) d.data sizes }
          else none
  | .chunk =>
      match p.coming with
      | []      => none
      | c :: cs => some { p with b := { p.b with inbox := p.b.inbox ++ [c] }, coming := cs }
  | .notify data eor =>
      some { p with
        b := { p.b with inbox := p.b.inbox ++ [{ data, notification := true, eor, info := none }] } }
  | .lose stream k =>
      match (p.wire stream)[k]? with
      | none   => none
      | some d =>
          if d.reliable then none
          else some { p with wire := Function.update p.wire stream ((p.wire stream).eraseIdx k) }

/-- The steps of `a` in a run of the pair. -/
def PairAct.ofA : PairAct → Option Act
  | .a act => some act
  | _      => none

variable {cfg cfgA cfgB : Config} {σ τ : Transport} {p q : Pair}

/-! ## Cutting -/

theorem cut_ne_nil (info : Nat × Nat) (data : Bytes) (sizes : List Nat) : cut info data sizes ≠ [] := by
  induction sizes generalizing data with
  | nil => exact List.cons_ne_nil _ _
  | cons n ns ih =>
      unfold cut
      split
      · exact List.cons_ne_nil _ _
      · exact ih data

/-- However a message is cut, its chunks are fragments of it. -/
theorem cut_pieces (info : Nat × Nat) {data : Bytes} (hdata : data ≠ []) (sizes : List Nat) :
    Cut false (some info) data (pieces (cut info data sizes)) := by
  induction sizes generalizing data with
  | nil =>
      have hp : pieces (cut info data []) = [{ lane := false, data, last := some (some info) }] := by
        simp [pieces, cut, Chunk.piece?, hdata]
      rw [hp]
      exact ⟨by simp, by simp, rfl, by simp⟩
  | cons n ns ih =>
      unfold cut
      by_cases hn : 0 < n ∧ n < data.length
      · rw [if_pos hn]
        have hdrop : data.drop n ≠ [] := by
          simp only [ne_eq, List.drop_eq_nil_iff]
          omega
        have htake : data.take n ≠ [] := by
          simp only [ne_eq, List.take_eq_nil_iff, not_or]
          exact ⟨by omega, hdata⟩
        obtain ⟨hlane, hflat, hlast, hmore⟩ := ih hdrop
        have hp : ∀ cs, pieces ({ data := data.take n, notification := false, eor := false, info := some info } :: cs) =
            { lane := false, data := data.take n, last := none } :: pieces cs := by
          intro cs
          simp [pieces, Chunk.piece?, htake]
        have hne : pieces (cut info (data.drop n) ns) ≠ [] := by
          intro hnil
          rw [hnil] at hlast
          exact absurd hlast (by simp)
        rw [hp]
        refine ⟨?_, ?_, ?_, ?_⟩
        · intro f hf
          rcases List.mem_cons.mp hf with rfl | hf
          · rfl
          · exact hlane f hf
        · rw [List.flatMap_cons, hflat]
          exact List.take_append_drop n data
        · rw [List.getLast?_cons_of_ne_nil hne]
          exact hlast
        · rw [List.dropLast_cons_of_ne_nil hne]
          intro f hf
          rcases List.mem_cons.mp hf with rfl | hf
          · rfl
          · exact hmore f hf
      · rw [if_neg hn]
        exact ih hdata

/-! ## Calls -/

/-- The log of calls grows. -/
theorem calls_grow (σ : Transport) : Closed fun τ => σ.calls <+: τ.calls where
  held _ _ _ h := h
  popped τ m ms as r h _ hq := by
    obtain ⟨channels, heq⟩ := popped_eq hq as r
    rw [heq]
    exact h.trans (List.prefix_append _ _)
  shutdown τ h _ := by
    rcases shutdown_cases τ with ⟨heq, _⟩ | ⟨_, _, as, heq | heq⟩ <;> rw [heq]
    · exact h
    · exact h.trans (List.prefix_append _ _)
    · exact h.trans (List.prefix_append _ _)
  passed _ _ _ _ h _ _ := h.trans (List.prefix_append _ _)
  wait τ m h := by
    obtain ⟨channels, heq⟩ :=
      updateBufferedAmount_frame (τ.push m) m.stream (message_size_func m.message)
    show σ.calls <+: ((τ.push m).updateBufferedAmount m.stream (message_size_func m.message)).calls
    rw [heq]
    unfold Transport.push
    split <;> exact h
  stop _ h := h
  abort _ h := h.trans (List.prefix_append _ _)
  state _ _ _ _ h := h
  schedule _ _ _ _ h := h
  receive _ _ _ _ _ _ _ _ _ h := h

theorem step_calls {act : Act} (hstep : step cfg σ act = some τ) : σ.calls <+: τ.calls := by
  cases act with
  | register stream =>
      simp only [step, Option.ite_none_right_eq_some, Option.some.injEq] at hstep
      exact hstep.2 ▸ List.prefix_refl _
  | unregister stream => exact Option.some.inj hstep ▸ List.prefix_refl _
  | setBufferedAmountLowThreshold stream n =>
      simp only [step] at hstep
      split at hstep
      · exact absurd hstep (by simp)
      · exact Option.some.inj hstep ▸ List.prefix_refl _
  | _ => exact (calls_grow σ).step hstep (by simp) (by simp) (by simp) (List.prefix_refl _)

/-- What a step sends on a stream comes behind what was sent. -/
theorem sentOn_step {act : Act} (hstep : step cfg σ act = some τ) (stream : Nat) :
    τ.sentOn stream = σ.sentOn stream ++ (τ.sentOn stream).drop (σ.sentOn stream).length := by
  have hpre : σ.sentOn stream <+: τ.sentOn stream :=
    ((step_calls hstep).filterMap _).filter _
  obtain ⟨new, hnew⟩ := hpre
  rw [← hnew, List.drop_left]

/-! ## The invariant -/

/-- All that arrived in the socket of `b`, or is about to. -/
def Pair.all (p : Pair) : List Chunk := p.b.read ++ p.b.inbox ++ p.coming

/-- The fragments of messages among chunks. -/
def messagePieces (cs : List Chunk) : List Piece := (pieces cs).filter fun f => f.lane = false

/-- The frame is a message on a stream. -/
def onStream (stream : Nat) (x : Frame Bool UInt8 (Option (Nat × Nat))) : Bool :=
  match x with
  | (_, some (sid, _), _) => sid = stream
  | (_, none, _)          => false

/-- The messages on a stream among chunks. -/
def framesOn (stream : Nat) (cs : List Chunk) : List (Frame Bool UInt8 (Option (Nat × Nat))) :=
  (frames empty (messagePieces cs)).filter (onStream stream)

/-- All that was sent on a stream is ordered. -/
def Ordered (σ : Transport) (stream : Nat) : Prop := ∀ d ∈ σ.sentOn stream, d.unordered = false

/-- All that was sent on a stream is reliable. -/
def Reliable (σ : Transport) (stream : Nat) : Prop := ∀ d ∈ σ.sentOn stream, d.reliable = true

structure Carried (p : Pair) : Prop where
  /-- No message is incomplete for which no chunk is to come. -/
  whole : rest empty (messagePieces p.all) false = []
  sent  : ∀ stream, ∀ d ∈ p.wire stream, d ∈ p.a.sentOn stream
  flow  : ∀ stream, Flow (Ordered p.a stream) (Reliable p.a stream)
    (framesOn stream p.all ++ (p.wire stream).map Datagram.frame)
    ((p.a.sentOn stream).map Datagram.frame)

theorem Carried.init : Carried Pair.init :=
  ⟨rfl, fun _ _ hd => absurd hd (by simp [Pair.init]), fun _ => Flow.refl _⟩

theorem messagePieces_append (cs ds : List Chunk) :
    messagePieces (cs ++ ds) = messagePieces cs ++ messagePieces ds := by
  rw [messagePieces, pieces_append, List.filter_append]
  rfl

/-- A notification is not a message. -/
theorem messagePieces_notification {c : Chunk} (hc : c.notification = true) : messagePieces [c] = [] := by
  unfold messagePieces pieces Chunk.piece?
  by_cases hd : c.data = [] <;> simp [hd, hc]

theorem messagePieces_cut (info : Nat × Nat) {data : Bytes} (hdata : data ≠ []) (sizes : List Nat) :
    messagePieces (cut info data sizes) = pieces (cut info data sizes) := by
  refine List.filter_eq_self.mpr ?_
  intro f hf
  simpa using (cut_pieces info hdata sizes).lane f hf

/-- The invariant does not see where the chunks are. -/
theorem Carried.same (h : Carried p) (ha : q.a = p.a) (hwire : q.wire = p.wire)
    (hall : messagePieces q.all = messagePieces p.all) : Carried q := by
  refine ⟨?_, ?_, ?_⟩
  · rw [hall]
    exact h.whole
  · rw [ha, hwire]
    exact h.sent
  · intro stream
    rw [ha, hwire, framesOn, hall]
    exact h.flow stream

/-- `a` takes a step. -/
theorem Carried.stepA (h : Carried p) {act : Act} {a : Transport} (hstep : step cfgA p.a act = some a) :
    Carried { p with
      a, wire := fun stream => p.wire stream ++ (a.sentOn stream).drop (p.a.sentOn stream).length } := by
  have hsent := sentOn_step hstep
  have hold : ∀ stream, ∀ d ∈ p.a.sentOn stream, d ∈ a.sentOn stream := by
    intro stream d hd
    rw [hsent stream]
    exact List.mem_append_left _ hd
  refine ⟨h.whole, ?_, ?_⟩
  · intro stream d hd
    rcases List.mem_append.mp hd with hd | hd
    · exact hold stream d (h.sent stream d hd)
    · exact List.mem_of_mem_drop hd
  · intro stream
    have hflow : Flow (Ordered a stream) (Reliable a stream)
        (framesOn stream p.all ++ (p.wire stream).map Datagram.frame)
        ((p.a.sentOn stream).map Datagram.frame) :=
      (h.flow stream).weaken (fun ho d hd => ho d (hold stream d hd)) (fun hr d hd => hr d (hold stream d hd))
    have hsend := hflow.send (((a.sentOn stream).drop (p.a.sentOn stream).length).map Datagram.frame)
    rw [List.append_assoc, ← List.map_append, ← List.map_append, ← hsent stream] at hsend
    exact hsend

/-- A datagram that was sent is that of a message. -/
theorem sentOn_message (hi : Inv σ) {stream : Nat} {d : Datagram} (hd : d ∈ σ.sentOn stream) :
    d.sid = stream ∧ ∃ m ∈ σ.mSendQueue.popped, ppid m.message = some d.ppid ∧ m.datagram d.ppid = d := by
  obtain ⟨hmem, hsid⟩ := List.mem_filter.mp hd
  obtain ⟨c, hc, hcd⟩ := List.mem_filterMap.mp hmem
  cases c with
  | resetStreams s => exact absurd hcd (by simp)
  | shutdown rdwr => exact absurd hcd (by simp)
  | sendv d' =>
      obtain rfl : d' = d := by simpa using hcd
      have hcall : Call.sendv d' ∈ σ.mSendQueue.popped.map Outgoing.call := by
        rw [← hi.calls]
        exact List.mem_filter.mpr ⟨hc, rfl⟩
      obtain ⟨m, hm, hmc⟩ := List.mem_map.mp hcall
      refine ⟨by simpa using hsid, m, hm, ?_⟩
      unfold Outgoing.call at hmc
      split at hmc
      · exact absurd hmc (by simp)
      · rename_i ppid hp
        obtain rfl := Call.sendv.inj hmc
        exact ⟨hp, rfl⟩

theorem datagram_data (m : Outgoing) (ppid : Nat) : (m.datagram ppid).data ≠ [] := by
  unfold Outgoing.datagram
  dsimp only
  split
  · assumption
  · simp

/-- What comes out of the wire of a stream. -/
theorem erase_wire {w : List Datagram} {k : Nat} {d : Datagram} (hd : w[k]? = some d) :
    (w.map Datagram.frame).Perm (d.frame :: (w.eraseIdx k).map Datagram.frame) := by
  obtain ⟨hk, rfl⟩ := List.getElem?_eq_some_iff.mp hd
  exact (List.getElem_cons_eraseIdx_perm hk).symm.map Datagram.frame

/-- A datagram begins to arrive. -/
theorem Carried.carry (h : Carried p) (hi : Inv p.a) {stream k : Nat} {d : Datagram}
    (hd : (p.wire stream)[k]? = some d) (hk : mayArrive (p.wire stream) k = true) (hcoming : p.coming = [])
    (sizes : List Nat) : Carried { p with
      wire := Function.update p.wire stream ((p.wire stream).eraseIdx k)
      coming := cut (d.sid, d.ppid) d.data sizes } := by
  have hmem := h.sent stream d (List.mem_of_getElem? hd)
  obtain ⟨hsid, m, _, _, hm⟩ := sentOn_message hi hmem
  have hdata : d.data ≠ [] := hm ▸ datagram_data m d.ppid
  have hall : p.all = p.b.read ++ p.b.inbox := by
    rw [Pair.all, hcoming, List.append_nil]
  have hwhole := h.whole
  obtain ⟨hframes, hrest⟩ := frames_cut (cut_pieces (d.sid, d.ppid) hdata sizes)
    (rest empty (messagePieces p.all))
  rw [hwhole, List.nil_append] at hframes
  -- the new chunks complete one frame
  have hnew : frames empty (messagePieces (p.all ++ cut (d.sid, d.ppid) d.data sizes)) =
      frames empty (messagePieces p.all) ++ [d.frame] := by
    rw [messagePieces_append, messagePieces_cut _ hdata, frames_append, hframes]
    rfl
  refine ⟨?_, ?_, ?_⟩
  · show rest empty (messagePieces (p.b.read ++ p.b.inbox ++ cut (d.sid, d.ppid) d.data sizes)) false = []
    rw [← hall, messagePieces_append, messagePieces_cut _ hdata, rest_append, hrest, Function.update_self]
  · intro s e he
    by_cases hs : s = stream
    · subst hs
      dsimp only at he
      rw [Function.update_self] at he
      exact h.sent s e (List.mem_of_mem_eraseIdx he)
    · dsimp only at he
      rw [Function.update_of_ne hs] at he
      exact h.sent s e he
  · intro s
    show Flow _ _ (framesOn s (p.b.read ++ p.b.inbox ++ cut (d.sid, d.ppid) d.data sizes) ++
      (Function.update p.wire stream ((p.wire stream).eraseIdx k) s).map Datagram.frame) _
    rw [← hall, framesOn, hnew, List.filter_append]
    by_cases hs : s = stream
    · subst hs
      have hon : [d.frame].filter (onStream s) = [d.frame] := by
        simp [Datagram.frame, onStream, hsid]
      rw [hon, Function.update_self]
      refine (h.flow s).deliver (erase_wire hd) ?_
      intro ho
      have hk0 := arrives_ordered (fun x hx => ho x (h.sent s x hx)) hk
      subst hk0
      cases hw : p.wire s with
      | nil => rw [hw] at hd; exact absurd hd (by simp)
      | cons x w =>
          rw [hw] at hd
          obtain rfl : x = d := by simpa using hd
          rfl
    · have hon : [d.frame].filter (onStream s) = [] :=
        List.filter_cons_of_neg (by simpa [Datagram.frame, onStream, hsid] using Ne.symm hs)
      rw [hon, List.append_nil, Function.update_of_ne hs]
      exact h.flow s

/-- A datagram is given up. -/
theorem Carried.lose (h : Carried p) {stream k : Nat} {d : Datagram} (hd : (p.wire stream)[k]? = some d)
    (hr : d.reliable = false) : Carried { p with
      wire := Function.update p.wire stream ((p.wire stream).eraseIdx k) } := by
  refine ⟨h.whole, ?_, ?_⟩
  · intro s e he
    by_cases hs : s = stream
    · subst hs
      dsimp only at he
      rw [Function.update_self] at he
      exact h.sent s e (List.mem_of_mem_eraseIdx he)
    · dsimp only at he
      rw [Function.update_of_ne hs] at he
      exact h.sent s e he
  · intro s
    show Flow _ _ (framesOn s p.all ++
      (Function.update p.wire stream ((p.wire stream).eraseIdx k) s).map Datagram.frame) _
    by_cases hs : s = stream
    · subst hs
      rw [Function.update_self]
      refine (h.flow s).lose ((List.eraseIdx_sublist _ k).map _) ?_
      intro hall
      have := hall d (h.sent s d (List.mem_of_getElem? hd))
      rw [hr] at this
      exact absurd this (by simp)
    · rw [Function.update_of_ne hs]
      exact h.flow s

/-- **One step of the pair.** -/
theorem Carried.step (h : Carried p) (hA : Inv p.a) (hB : Received cfgB p.b) {act : PairAct}
    (hstep : pairStep cfgA cfgB p act = some q) : Carried q ∧ Inv q.a ∧ Received cfgB q.b := by
  cases act with
  | a act =>
      obtain ⟨a, ha, rfl⟩ := Option.map_eq_some_iff.mp hstep
      exact ⟨h.stepA ha, hA.step ha, hB⟩
  | b act =>
      simp only [pairStep] at hstep
      split at hstep
      · exact absurd hstep (by simp)
      · rename_i hact
        obtain ⟨b, hb, rfl⟩ := Option.map_eq_some_iff.mp hstep
        obtain ⟨hr, hlog⟩ := hB.step hb
        refine ⟨h.same rfl rfl ?_, hA, hr⟩
        have hnone : Sctp.arrives act = [] := by
          cases act with
          | arrive chunks => exact absurd rfl hact
          | _ => rfl
        rw [hnone, List.append_nil] at hlog
        exact congrArg messagePieces (congrArg (· ++ p.coming) hlog)
  | carry stream k sizes =>
      simp only [pairStep] at hstep
      split at hstep
      · exact absurd hstep (by simp)
      · rename_i d hd
        split at hstep
        · rename_i hk
          obtain rfl := Option.some.inj hstep
          exact ⟨h.carry hA hd hk.2 hk.1 sizes, hA, hB⟩
        · exact absurd hstep (by simp)
  | chunk =>
      simp only [pairStep] at hstep
      split at hstep
      · exact absurd hstep (by simp)
      · rename_i c cs hc
        obtain rfl := Option.some.inj hstep
        refine ⟨h.same rfl rfl (congrArg messagePieces ?_), hA, hB.inbox _⟩
        simp [Pair.all, hc]
  | notify data eor =>
      obtain rfl := Option.some.inj hstep
      refine ⟨h.same rfl rfl ?_, hA, hB.inbox _⟩
      simp only [Pair.all, messagePieces_append]
      rw [messagePieces_notification rfl, List.append_nil]
  | lose stream k =>
      simp only [pairStep] at hstep
      split at hstep
      · exact absurd hstep (by simp)
      · rename_i d hd
        split at hstep
        · exact absurd hstep (by simp)
        · rename_i hr
          obtain rfl := Option.some.inj hstep
          exact ⟨h.lose hd (by simpa using hr), hA, hB⟩

theorem Carried.run {as : List PairAct} (h : exec (pairStep cfgA cfgB) Any Pair.init as = some p) :
    Carried p ∧ Inv p.a ∧ Received cfgB p.b :=
  (Path.of_exec h).invariant (I := fun p => Carried p ∧ Inv p.a ∧ Received cfgB p.b)
    (fun _ _ _ ⟨hc, ha, hb⟩ _ hs => hc.step ha hb hs) ⟨Carried.init, Inv.init, Received.init⟩

/-- A run of the pair is a run of `a`. -/
theorem run_a {as : List PairAct} (h : exec (pairStep cfgA cfgB) Any Pair.init as = some p) :
    exec (Sctp.step cfgA) Any .init (as.filterMap PairAct.ofA) = some p.a := by
  refine exec_component (f := Pair.a) ?_ h
  intro p act q hstep
  cases act with
  | a act =>
      obtain ⟨a, ha, rfl⟩ := Option.map_eq_some_iff.mp hstep
      exact ha
  | b act =>
      simp only [pairStep] at hstep
      split at hstep
      · exact absurd hstep (by simp)
      · obtain ⟨b, hb, rfl⟩ := Option.map_eq_some_iff.mp hstep
        rfl
  | notify data eor => exact Option.some.inj hstep ▸ rfl
  | _ =>
      simp only [pairStep] at hstep
      repeat' split at hstep
      all_goals first | exact Option.some.inj hstep ▸ rfl | exact absurd hstep (by simp)

/-! ## Contents -/

/-- The content that is handed on for a message. -/
def contentOf (cfg : Config) (x : Frame Bool UInt8 (Option (Nat × Nat))) : Option Content :=
  match x with
  | (_, some (_, ppid), data) => content? ppid (data.take cfg.mMaxMessageSize)
  | (_, none, _)              => none

/-- What a transport handed on for a stream. -/
def heard (stream : Nat) (σ : Transport) : List Content :=
  (σ.messages.filter fun x => !isReset x).filterMap fun x => if x.1 = stream then some x.2 else none

/-- What is to be handed on for messages on a stream. -/
def said (cfg : Config) (stream : Nat) (ms : List Outgoing) : List Content :=
  ms.filterMap fun m => if m.stream = stream ∧ m.message.type ≠ .Reset then some (m.arriving cfg).2 else none

@[simp] theorem datagram_sid (m : Outgoing) (ppid : Nat) : (m.datagram ppid).sid = m.stream := rfl

/-- A message that is to be handed on for a stream. -/
theorem said_pos (cfg : Config) {stream : Nat} {m : Outgoing} (hs : m.stream = stream)
    (ht : m.message.type ≠ .Reset) (ms : List Outgoing) :
    said cfg stream (m :: ms) = (m.arriving cfg).2 :: said cfg stream ms :=
  List.filterMap_cons_some (if_pos ⟨hs, ht⟩)

theorem said_neg (cfg : Config) {stream : Nat} {m : Outgoing}
    (h : ¬ (m.stream = stream ∧ m.message.type ≠ .Reset)) (ms : List Outgoing) :
    said cfg stream (m :: ms) = said cfg stream ms :=
  List.filterMap_cons_none (if_neg h)

theorem contentOf_datagram (cfg : Config) {m : Outgoing} {p : Nat} (hp : ppid m.message = some p) :
    contentOf cfg (m.datagram p).frame = some (m.arriving cfg).2 := by
  have h := (handOn_datagram cfg hp).1
  show content? p _ = _
  change (Option.map _ (content? p _)).toList = _ at h
  cases hc : content? p ((m.datagram p).data.take cfg.mMaxMessageSize) with
  | none =>
      rw [hc] at h
      exact absurd h (by simp)
  | some c =>
      rw [hc] at h
      exact congrArg some (congrArg Prod.snd (List.head_eq_of_cons_eq h))

/-- What is handed on for the messages among frames. -/
theorem handOn_stream (cfg : Config) (stream : Nat) {xs : List (Frame Bool UInt8 (Option (Nat × Nat)))}
    (hxs : ∀ x ∈ xs, x.1 = false) :
    (xs.flatMap (handOn cfg)).filterMap (fun x => if x.1 = stream then some x.2 else none) =
      (xs.filter (onStream stream)).filterMap (contentOf cfg) := by
  induction xs with
  | nil => rfl
  | cons x xs ih =>
      rw [List.flatMap_cons, List.filterMap_append, ih fun y hy => hxs y (List.mem_cons_of_mem x hy)]
      have hx := hxs x List.mem_cons_self
      obtain ⟨lane, info, data⟩ := x
      dsimp only at hx
      subst hx
      cases info with
      | none => rfl
      | some info =>
          obtain ⟨sid, ppid⟩ := info
          by_cases hs : sid = stream
          · rw [List.filter_cons_of_pos (by simpa [onStream] using hs)]
            cases hc : content? ppid (data.take cfg.mMaxMessageSize) with
            | none => simp [handOn, contentOf, hc]
            | some c => simp [handOn, contentOf, hc, hs]
          · rw [List.filter_cons_of_neg (by simpa [onStream] using hs)]
            cases hc : content? ppid (data.take cfg.mMaxMessageSize) with
            | none => simp [handOn, hc]
            | some c => simp [handOn, hc, hs]

/-- What was sent on a stream, as what is to be handed on. -/
theorem contents_sent (cfg : Config) (hi : Inv σ) (stream : Nat) :
    ((σ.sentOn stream).map Datagram.frame).filterMap (contentOf cfg) = said cfg stream σ.mSendQueue.popped := by
  have hcalls : datagrams σ.calls = datagrams (σ.mSendQueue.popped.map Outgoing.call) := by
    rw [← hi.calls, datagrams, datagrams, List.filterMap_filter]
    congr 1
    funext c
    cases c <;> rfl
  rw [Transport.sentOn, hcalls]
  clear hcalls
  generalize σ.mSendQueue.popped = ms
  induction ms with
  | nil => rfl
  | cons m ms ih =>
      cases hp : ppid m.message with
      | none =>
          have hcall : m.call = .resetStreams m.stream := by
            rw [Outgoing.call, hp]
          have htype := ppid_eq_none.mp hp
          rw [List.map_cons, hcall, said_neg cfg (by simp [htype])]
          exact ih
      | some p =>
          have hcall : m.call = .sendv (m.datagram p) := by
            rw [Outgoing.call, hp]
          have htype : m.message.type ≠ .Reset := fun h => absurd (ppid_eq_none.mpr h) (by simp [hp])
          have hds : datagrams ((m :: ms).map Outgoing.call) =
              m.datagram p :: datagrams (ms.map Outgoing.call) := by
            rw [List.map_cons, hcall]
            rfl
          rw [hds]
          by_cases hs : m.stream = stream
          · rw [List.filter_cons_of_pos (p := fun d : Datagram => d.sid = stream) (decide_eq_true hs), List.map_cons,
              List.filterMap_cons_some (contentOf_datagram cfg hp), ih, said_pos cfg hs htype]
          · rw [List.filter_cons_of_neg (p := fun d : Datagram => d.sid = stream) (by simp [hs]), ih, said_neg cfg fun h => hs h.1]

/-- What was handed on is the first part of what arrived. -/
theorem heard_eq (h : Carried p) (hA : Inv p.a) (hB : Received cfgB p.b) (stream : Nat) :
    heard stream p.b = (framesOn stream p.b.read).filterMap (contentOf cfgB) := by
  have hlane : (frames empty (pieces p.b.read)).filter (fun x => x.1 = false) =
      frames empty (messagePieces p.b.read) := frames_lane false rfl _
  have hpart : ∀ x ∈ p.b.frames, isPart x = false := by
    rintro ⟨lane, info, data⟩ hx
    cases lane with
    | true => rfl
    | false =>
        cases info with
        | none => rfl
        | some info =>
            obtain ⟨sid, ppid⟩ := info
            have hmem : (false, some (sid, ppid), data) ∈ framesOn sid p.all := by
              refine List.mem_filter.mpr ⟨?_, by simp [onStream]⟩
              rw [Pair.all, List.append_assoc, messagePieces_append, frames_append, ← hlane]
              exact List.mem_append_left _ (List.mem_filter.mpr ⟨hx, by simp⟩)
            obtain ⟨d, hd, hdx⟩ := List.mem_map.mp
              ((h.flow sid).subperm.subset (List.mem_append_left _ hmem))
            obtain ⟨_, m, _, hp, hm⟩ := sentOn_message hA hd
            rw [← hdx, ← hm]
            exact (handOn_datagram cfgB hp).2
  have hmessages := (hB.handed hpart).2.2
  rw [heard, hmessages, filter_handOn, hlane]
  refine handOn_stream cfgB stream ?_
  intro x hx
  rw [← hlane] at hx
  simpa using (List.mem_filter.mp hx).2

/-! ## Results -/

/-- All messages that were put in on a stream are ordered. -/
def OrderedOn (stream : Nat) (ms : List Outgoing) : Prop :=
  ∀ m ∈ ms, m.stream = stream → m.message.type ≠ .Reset → m.message.unordered = false

/-- All messages that were put in on a stream are reliable. -/
def ReliableOn (stream : Nat) (ms : List Outgoing) : Prop :=
  ∀ m ∈ ms, m.stream = stream → m.message.type ≠ .Reset → policy m.message.reliability = .SCTP_PR_SCTP_NONE

theorem said_append (cfg : Config) (stream : Nat) (ms ms' : List Outgoing) :
    said cfg stream (ms ++ ms') = said cfg stream ms ++ said cfg stream ms' := List.filterMap_append

/-- What is known of the messages that were put in is known of the datagrams that were sent. -/
theorem ordered_sent (hi : Inv σ) {stream : Nat} (h : OrderedOn stream σ.mSendQueue.pushed) :
    Ordered σ stream := by
  intro d hd
  obtain ⟨hsid, m, hm, hp, hmd⟩ := sentOn_message hi hd
  have hpushed : m ∈ σ.mSendQueue.pushed := hi.conserved ▸ List.mem_append_left _ hm
  rw [← hmd] at hsid ⊢
  exact h m hpushed hsid fun ht => absurd (ppid_eq_none.mpr ht) (by simp [hp])

theorem reliable_sent (hi : Inv σ) {stream : Nat} (h : ReliableOn stream σ.mSendQueue.pushed) :
    Reliable σ stream := by
  intro d hd
  obtain ⟨hsid, m, hm, hp, hmd⟩ := sentOn_message hi hd
  have hpushed : m ∈ σ.mSendQueue.pushed := hi.conserved ▸ List.mem_append_left _ hm
  rw [← hmd] at hsid ⊢
  exact decide_eq_true (h m hpushed hsid fun ht => absurd (ppid_eq_none.mpr ht) (by simp [hp]))

/-- What `a` put in, in a run of the pair. -/
def putIn (cfgA : Config) (as : List PairAct) : List Outgoing := accepted cfgA .init (as.filterMap PairAct.ofA)

theorem putIn_eq {as : List PairAct} (h : exec (pairStep cfgA cfgB) Any Pair.init as = some p) :
    p.a.mSendQueue.pushed = putIn cfgA as :=
  exec_collect (L := fun σ => σ.mSendQueue.pushed) (fun _ _ _ hs => step_pushed hs) (run_a h)

/-- **End to end.** In every run of two transports, with any refusals of the socket of the sender, with any
    losses and reorderings that the reliability of the messages allows, with any cutting, any notifications
    in between and any batches in which the receiver reads, what the receiver hands on for a stream was put
    in at the sender on that stream, once each and byte for byte as far as it fits; in order if all is
    ordered; and without a gap if all is reliable as well. -/
theorem end_to_end {as : List PairAct} (h : exec (pairStep cfgA cfgB) Any Pair.init as = some p)
    (stream : Nat) :
    Conveyed (OrderedOn stream (putIn cfgA as)) (ReliableOn stream (putIn cfgA as))
      (heard stream p.b) (said cfgB stream (putIn cfgA as)) := by
  obtain ⟨hc, hA, hB⟩ := Carried.run h
  rw [← putIn_eq h, heard_eq hc hA hB]
  have hflow := ((hc.flow stream).weaken (ordered_sent hA) (reliable_sent hA)).conveyed
  -- what was read is the first part of what arrived
  have hread : framesOn stream p.b.read <+: framesOn stream p.all := by
    rw [framesOn, framesOn, Pair.all, List.append_assoc, messagePieces_append, frames_append, List.filter_append]
    exact List.prefix_append _ _
  have hgot := (hflow.take hread).filterMap (contentOf cfgB)
  rw [contents_sent cfgB hA] at hgot
  have hsaid : said cfgB stream p.a.mSendQueue.pushed =
      said cfgB stream p.a.mSendQueue.popped ++ said cfgB stream p.a.mSendQueue.queue := by
    rw [← said_append, hA.conserved]
  rw [hsaid]
  exact hgot.send _

/-- **All of it.** When nothing is on the way any more, what was put in on a reliable stream was handed on,
    all of it, and in order if it is ordered. -/
theorem end_to_end_complete {as : List PairAct} (h : exec (pairStep cfgA cfgB) Any Pair.init as = some p)
    {stream : Nat} (hr : ReliableOn stream (putIn cfgA as)) (hqueue : p.a.mSendQueue.queue = [])
    (hwire : p.wire stream = []) (hcoming : p.coming = []) (hinbox : p.b.inbox = []) :
    (heard stream p.b).Perm (said cfgB stream (putIn cfgA as)) ∧
    (OrderedOn stream (putIn cfgA as) → heard stream p.b = said cfgB stream (putIn cfgA as)) := by
  obtain ⟨hc, hA, hB⟩ := Carried.run h
  rw [← putIn_eq h] at hr ⊢
  have hflow := (hc.flow stream).weaken (ordered_sent hA) (reliable_sent hA)
  have hall : p.all = p.b.read := by
    rw [Pair.all, hinbox, hcoming, List.append_nil, List.append_nil]
  rw [hall, hwire, List.map_nil, List.append_nil] at hflow
  have hpushed : p.a.mSendQueue.pushed = p.a.mSendQueue.popped := by
    rw [← hA.conserved, hqueue, List.append_nil]
  rw [heard_eq hc hA hB]
  have hsaid := contents_sent cfgB hA stream
  rw [hpushed] at hflow hr ⊢
  rw [← hsaid]
  refine ⟨(hflow.perm hr).filterMap _, ?_⟩
  intro ho
  rw [hflow.eq ho hr]

/-! ## A run -/

/-- `b` reads what is in its socket. -/
def reads : List PairAct := [.b (.upcall true false), .b (.task [])]

/-- Both associations come up. -/
def bothUp : List PairAct :=
  connect.map PairAct.a ++ [.b .start, .notify (assocChange 1).data true] ++ reads

/-- A text arrives in two chunks, of which `b` reads the first alone; empty bytes wait in the queue of `a`. -/
def talk : List PairAct :=
  bothUp ++ [.a (.send (some (text 0 [104, 105, 106])) [none]), .a (.send (some (bytes 0 [])) []),
    .carry 0 0 [1], .chunk] ++ reads ++ [.notify [10, 0, 0, 0, 12, 0, 0, 0, 0, 0, 0, 0] true, .chunk] ++ reads

theorem end_to_end_talk :
    ∃ p, exec (pairStep machine machine) Any Pair.init talk = some p ∧
      heard 0 p.b = [(.String, [104, 105, 106])] ∧
      Conveyed (OrderedOn 0 (putIn machine talk)) (ReliableOn 0 (putIn machine talk))
        (heard 0 p.b) (said machine 0 (putIn machine talk)) :=
  ⟨_, rfl, by decide, end_to_end rfl 0⟩

/-- The socket of `a` can be written again. -/
def talkAll : List PairAct :=
  talk ++ [.a (.upcall false true), .a (.task [none]), .carry 0 0 [], .chunk] ++ reads

theorem end_to_end_complete_talkAll :
    ∃ p, exec (pairStep machine machine) Any Pair.init talkAll = some p ∧
      (heard 0 p.b).Perm (said machine 0 (putIn machine talkAll)) ∧
      said machine 0 (putIn machine talkAll) = [(.String, [104, 105, 106]), (.Binary, [])] := by
  have h : exec (pairStep machine machine) Any Pair.init talkAll = some _ := rfl
  have hput : putIn machine talkAll = [text 0 [104, 105, 106], bytes 0 []] := by decide
  have hr : ReliableOn 0 (putIn machine talkAll) := by
    rw [hput]
    intro m hm _ _
    rcases List.mem_cons.mp hm with rfl | hm
    · rfl
    · obtain rfl := List.mem_singleton.mp hm
      rfl
  exact ⟨_, rfl, (end_to_end_complete h hr rfl rfl rfl rfl).1, by decide⟩

end HxDatachannel.Sctp
