import HxDatachannel.Base.Framing
import HxDatachannel.Sctp.Queue

/-!
# `Sctp.Recv` — messages and notifications put together

`doRecv` reads chunks, of messages and of notifications, and puts them together. `Received` says in terms of
`Framing` what that comes to: whatever the chunks are and in whatever batches they are read, each message
that is complete is handed on once, cut to `mMaxMessageSize`, in the order in which the messages are
completed, together with the resets that complete notifications report.

The deprecated payload ids for parts of messages do not work: `partial_first` says what comes of them.
-/

namespace HxDatachannel.Sctp

open Lts Framing

variable {cfg : Config} {σ τ : Transport} {m : Outgoing}

/-- Messages and notifications are two lanes. The last chunk of a message tells its stream and payload id. -/
abbrev Piece := Fragment Bool UInt8 (Option (Nat × Nat))

/-- A chunk without data ends the reading and belongs to nothing. -/
def Chunk.piece? (c : Chunk) : Option Piece :=
  if c.data = [] then none
  else some { lane := c.notification, data := c.data, last := if c.eor then some c.info else none }

def pieces (cs : List Chunk) : List Piece := cs.filterMap Chunk.piece?

/-- The content of a message of a payload id that this library sends. -/
def content? (ppid : Nat) (data : Bytes) : Option Content :=
  if ppid = PPID_CONTROL then some (.Control, data)
  else if ppid = PPID_STRING then some (.String, data)
  else if ppid = PPID_STRING_EMPTY then some (.String, [])
  else if ppid = PPID_BINARY then some (.Binary, data)
  else if ppid = PPID_BINARY_EMPTY then some (.Binary, [])
  else none

/-- The resets that a notification reports. -/
def resets (n : Notification) (len : Nat) : List (Nat × Content) :=
  if len ≠ n.sn_length then []
  else
    match n.event with
    | .streamReset true streams => streams.map fun streamId => (streamId, .Reset, [])
    | _                         => []

/-- What is handed on for a frame. -/
def handOn (cfg : Config) : Frame Bool UInt8 (Option (Nat × Nat)) → List (Nat × Content)
  | (true, _, data)                 => resets (cfg.notification data) data.length
  | (false, none, _)                => []
  | (false, some (sid, ppid), data) =>
      ((content? ppid (data.take cfg.mMaxMessageSize)).map fun c => (sid, c)).toList

/-- The payload id is one of the deprecated ones for parts of messages. -/
def partPpid (ppid : Nat) : Bool := ppid = PPID_STRING_PARTIAL || ppid = PPID_BINARY_PARTIAL

def isPart : Frame Bool UInt8 (Option (Nat × Nat)) → Bool
  | (false, some (_, ppid), _) => partPpid ppid
  | _                          => false

/-- What was received, without the hangups. -/
def Transport.messages (σ : Transport) : List (Nat × Content) := σ.received.filterMap id

/-- What was read, as frames. -/
abbrev Transport.frames (σ : Transport) : List (Frame Bool UInt8 (Option (Nat × Nat))) :=
  Framing.frames empty (pieces σ.read)

/-- What is left of what was read. -/
abbrev Transport.rest (σ : Transport) : Buffers Bool UInt8 := Framing.rest empty (pieces σ.read)

/-- The buffers hold what is left, and while no message had a deprecated payload id, what was handed on are
    the messages and resets of the frames that are complete. -/
structure Received (cfg : Config) (σ : Transport) : Prop where
  message      : σ.mPartialMessage = (σ.rest false).take cfg.mMaxMessageSize
  notification : σ.mPartialNotification = σ.rest true
  handed       : (∀ x ∈ σ.frames, isPart x = false) →
    σ.mPartialStringData = [] ∧ σ.mPartialBinaryData = [] ∧ σ.messages = σ.frames.flatMap (handOn cfg)

/-! ## What is handed on -/

/-- Since `σ` the messages and resets `xs` were handed on. -/
structure Hears (σ : Transport) (xs : List (Nat × Content)) (τ : Transport) : Prop where
  read         : τ.read = σ.read
  inbox        : τ.inbox = σ.inbox
  message      : τ.mPartialMessage = σ.mPartialMessage
  notification : τ.mPartialNotification = σ.mPartialNotification
  stringData   : τ.mPartialStringData = σ.mPartialStringData
  binaryData   : τ.mPartialBinaryData = σ.mPartialBinaryData
  messages     : τ.messages = σ.messages ++ xs

variable {xs ys : List (Nat × Content)}

theorem Hears.refl (σ : Transport) : Hears σ [] σ :=
  ⟨rfl, rfl, rfl, rfl, rfl, rfl, (List.append_nil _).symm⟩

theorem Hears.trans {ρ : Transport} (h : Hears σ xs τ) (h' : Hears τ ys ρ) : Hears σ (xs ++ ys) ρ :=
  ⟨h'.read.trans h.read, h'.inbox.trans h.inbox, h'.message.trans h.message,
    h'.notification.trans h.notification, h'.stringData.trans h.stringData,
    h'.binaryData.trans h.binaryData, by rw [h'.messages, h.messages, List.append_assoc]⟩

theorem Hears.silent {ρ : Transport} (h : Hears σ xs τ) (h' : Hears τ [] ρ) : Hears σ xs ρ :=
  List.append_nil xs ▸ h.trans h'

/-- A hangup is not a message. -/
theorem hears_hangup (σ : Transport) : Hears σ [] (σ.recv none) :=
  ⟨rfl, rfl, rfl, rfl, rfl, rfl, by simp [Transport.messages, Transport.recv]⟩

theorem messages_snoc (received : List (Option (Nat × Content))) (x : Nat × Content) :
    (received ++ [some x]).filterMap id = received.filterMap id ++ [x] := by
  simp

theorem hears_recv (σ : Transport) (x : Nat × Content) : Hears σ [x] (σ.recv (some x)) :=
  ⟨rfl, rfl, rfl, rfl, rfl, rfl, messages_snoc _ x⟩

/-- What changes neither the buffers nor what was received. -/
theorem Hears.same (h : Hears σ xs τ) {ρ : Transport} (hread : ρ.read = τ.read) (hinbox : ρ.inbox = τ.inbox)
    (hmessage : ρ.mPartialMessage = τ.mPartialMessage)
    (hnotification : ρ.mPartialNotification = τ.mPartialNotification)
    (hstring : ρ.mPartialStringData = τ.mPartialStringData)
    (hbinary : ρ.mPartialBinaryData = τ.mPartialBinaryData) (hreceived : ρ.received = τ.received) :
    Hears σ xs ρ :=
  h.silent ⟨hread, hinbox, hmessage, hnotification, hstring, hbinary,
    by rw [Transport.messages, hreceived, List.append_nil]; rfl⟩

theorem hears_update (σ : Transport) (stream : Nat) (delta : Int) :
    Hears σ [] (σ.updateBufferedAmount stream delta) := by
  obtain ⟨channels, heq⟩ := updateBufferedAmount_frame σ stream delta
  rw [heq]
  exact (Hears.refl σ).same rfl rfl rfl rfl rfl rfl rfl

/-- What the transport does outside of `doRecv` hands on nothing but hangups. -/
theorem hears_outer (σ : Transport) : Outer (Hears σ []) where
  held _ _ _ h := h.same rfl rfl rfl rfl rfl rfl rfl
  popped τ m ms as r h _ hq := by
    refine h.silent (Hears.silent ?_ (hears_update _ m.stream _))
    unfold Transport.pop
    split <;> exact (Hears.refl τ).same rfl rfl rfl rfl rfl rfl rfl
  shutdown τ h _ := by
    rcases shutdown_cases τ with ⟨heq, _⟩ | ⟨_, _, as, heq | heq⟩
    · rw [heq]
      exact h
    · rw [heq]
      exact h.same rfl rfl rfl rfl rfl rfl rfl
    · rw [heq]
      exact (h.silent (hears_hangup τ)).same rfl rfl rfl rfl rfl rfl rfl
  passed _ _ _ _ h _ _ := h.same rfl rfl rfl rfl rfl rfl rfl
  wait τ m h := by
    refine h.silent (Hears.silent ?_ (hears_update _ m.stream _))
    unfold Transport.push
    split <;> exact (Hears.refl τ).same rfl rfl rfl rfl rfl rfl rfl
  stop _ h := h.same rfl rfl rfl rfl rfl rfl rfl
  abort _ h := h.same rfl rfl rfl rfl rfl rfl rfl
  state _ _ _ _ h := h.same rfl rfl rfl rfl rfl rfl rfl
  hangup τ h := h.silent (hears_hangup τ)
  schedule _ _ _ _ h := h.same rfl rfl rfl rfl rfl rfl rfl

theorem hears_resets (σ : Transport) (streams : List Nat) :
    Hears σ (streams.map fun streamId => (streamId, .Reset, []))
      (streams.foldl (fun σ streamId => σ.recv (some (streamId, .Reset, []))) σ) := by
  induction streams generalizing σ with
  | nil => exact Hears.refl σ
  | cons s streams ih => exact (hears_recv σ (s, .Reset, [])).trans (ih _)

/-- A complete notification hands on the resets that it reports. -/
theorem hears_processNotification (σ : Transport) (n : Notification) (len : Nat) :
    Hears σ (resets n len) (σ.processNotification n len) := by
  have ho := hears_outer σ
  unfold Transport.processNotification resets
  by_cases hlen : len ≠ n.sn_length
  · rw [if_pos hlen, if_pos hlen]
    exact Hears.refl σ
  · rw [if_neg hlen, if_neg hlen]
    cases n.event with
    | assocChange up =>
        cases up with
        | none =>
            dsimp only
            split
            · exact ho.hangup _ (ho.state σ .Disconnected σ.mNegotiatedStreamsCount σ.early (Hears.refl σ))
            · exact ho.state σ .Failed _ _ (Hears.refl σ)
        | some counts => exact ho.state σ _ _ _ (Hears.refl σ)
    | senderDry => exact ho.toSends.flush (Hears.refl σ)
    | streamReset incoming streams =>
        cases incoming with
        | false => exact Hears.refl σ
        | true => exact hears_resets σ streams
    | other => exact Hears.refl σ

/-! ## Chunks -/

theorem pieces_append (cs ds : List Chunk) : pieces (cs ++ ds) = pieces cs ++ pieces ds :=
  List.filterMap_append

/-- A chunk without data leaves what was read as it is. -/
theorem pieces_nil {c : Chunk} (hc : c.data = []) (cs : List Chunk) : pieces (cs ++ [c]) = pieces cs := by
  rw [pieces_append]
  simp [pieces, Chunk.piece?, hc]

theorem pieces_snoc {c : Chunk} (hc : c.data ≠ []) (cs : List Chunk) :
    pieces (cs ++ [c]) =
      pieces cs ++ [{ lane := c.notification, data := c.data, last := if c.eor then some c.info else none }] := by
  rw [pieces_append]
  simp [pieces, Chunk.piece?, hc]

/-- The buffers after a chunk that does not end its frame. -/
theorem more_chunk {c : Chunk} (hc : c.data ≠ []) (heor : c.eor = false) (cs : List Chunk) :
    Framing.frames empty (pieces (cs ++ [c])) = Framing.frames empty (pieces cs) ∧
    Framing.rest empty (pieces (cs ++ [c])) =
      Function.update (Framing.rest empty (pieces cs)) c.notification
        (Framing.rest empty (pieces cs) c.notification ++ c.data) := by
  rw [pieces_snoc hc, frames_append, rest_append]
  simp [Framing.frames, Framing.rest, heor]

/-- The frame that the last of its chunks completes. -/
theorem last_chunk {c : Chunk} (hc : c.data ≠ []) (heor : c.eor = true) (cs : List Chunk) :
    Framing.frames empty (pieces (cs ++ [c])) = Framing.frames empty (pieces cs) ++
      [(c.notification, c.info, Framing.rest empty (pieces cs) c.notification ++ c.data)] ∧
    Framing.rest empty (pieces (cs ++ [c])) =
      Function.update (Framing.rest empty (pieces cs)) c.notification [] := by
  rw [pieces_snoc hc, frames_append, rest_append]
  simp [Framing.frames, Framing.rest, heor]

/-- A message that grows is cut as it would be at its end. -/
theorem take_take_append (xs ys : Bytes) (n : Nat) : (xs.take n ++ ys).take n = (xs ++ ys).take n := by
  simp only [List.take_append, List.take_take, Nat.min_self, List.length_take]
  congr 2
  omega

theorem resize_eq_take {data : Bytes} {size : Nat} (h : size < data.length) : resize data size = data.take size := by
  rw [resize, Nat.sub_eq_zero_of_le (Nat.le_of_lt h), List.replicate_zero, List.append_nil]

/-- The message as `doRecv` keeps it. -/
theorem cut_eq (xs data : Bytes) (n : Nat) :
    (if n < (xs.take n ++ data).length then resize (xs.take n ++ data) n else xs.take n ++ data) =
      (xs ++ data).take n := by
  rw [← take_take_append]
  split
  · rename_i h
    exact resize_eq_take h
  · rename_i h
    exact (List.take_of_length_le (Nat.le_of_not_lt h)).symm

/-- A message that has no parts is handed on as it is. -/
theorem hears_processData (cfg : Config) (hs : σ.mPartialStringData = []) (hb : σ.mPartialBinaryData = []) (data : Bytes)
    (sid : Nat) {ppid : Nat} (hp : partPpid ppid = false) :
    Hears σ ((content? ppid data).map fun c => (sid, c)).toList (σ.processData cfg data sid ppid) := by
  obtain ⟨hns, hnb⟩ := Bool.or_eq_false_iff.mp hp
  have hns : ppid ≠ PPID_STRING_PARTIAL := by simpa using hns
  have hnb : ppid ≠ PPID_BINARY_PARTIAL := by simpa using hnb
  unfold Transport.processData content?
  rw [if_neg hns, if_neg hnb, hs, hb]
  by_cases h₁ : ppid = PPID_CONTROL
  · rw [if_pos h₁, if_pos h₁]
    exact hears_recv σ _
  rw [if_neg h₁, if_neg h₁]
  by_cases h₂ : ppid = PPID_STRING
  · rw [if_pos h₂, if_pos h₂]
    exact ⟨rfl, rfl, rfl, rfl, hs.symm, hb.symm, messages_snoc _ _⟩
  rw [if_neg h₂, if_neg h₂]
  by_cases h₃ : ppid = PPID_STRING_EMPTY
  · rw [if_pos h₃, if_pos h₃]
    exact ⟨rfl, rfl, rfl, rfl, hs.symm, hb.symm, messages_snoc _ _⟩
  rw [if_neg h₃, if_neg h₃]
  by_cases h₄ : ppid = PPID_BINARY
  · rw [if_pos h₄, if_pos h₄]
    exact ⟨rfl, rfl, rfl, rfl, hs.symm, hb.symm, messages_snoc _ _⟩
  rw [if_neg h₄, if_neg h₄]
  by_cases h₅ : ppid = PPID_BINARY_EMPTY
  · rw [if_pos h₅, if_pos h₅]
    exact ⟨rfl, rfl, rfl, rfl, hs.symm, hb.symm, messages_snoc _ _⟩
  rw [if_neg h₅, if_neg h₅]
  exact Hears.refl σ

/-- What `processData` leaves alone. -/
theorem processData_frame (cfg : Config) (σ : Transport) (data : Bytes) (sid ppid : Nat) :
    (σ.processData cfg data sid ppid).read = σ.read ∧
    (σ.processData cfg data sid ppid).mPartialMessage = σ.mPartialMessage ∧
    (σ.processData cfg data sid ppid).mPartialNotification = σ.mPartialNotification := by
  unfold Transport.processData
  repeat' split
  all_goals exact ⟨rfl, rfl, rfl⟩

/-! ## Reading -/

theorem Received.hears (h : Received cfg σ) (hτ : Hears σ [] τ) : Received cfg τ := by
  refine ⟨?_, ?_, ?_⟩
  · rw [hτ.message, Transport.rest, hτ.read]
    exact h.message
  · rw [hτ.notification, Transport.rest, hτ.read]
    exact h.notification
  · intro hp
    rw [Transport.frames, hτ.read] at hp ⊢
    rw [hτ.stringData, hτ.binaryData, hτ.messages, List.append_nil]
    exact h.handed hp

/-- A chunk that does not end its frame: it stays in the buffer of its lane. -/
theorem Received.more {c : Chunk} (h : Received cfg σ) (hc : c.data ≠ []) (heor : c.eor = false)
    (hread : τ.read = σ.read ++ [c])
    (hmessage : τ.mPartialMessage =
      if c.notification then σ.mPartialMessage else (σ.rest false ++ c.data).take cfg.mMaxMessageSize)
    (hnotification : τ.mPartialNotification =
      if c.notification then σ.mPartialNotification ++ c.data else σ.mPartialNotification)
    (hstring : τ.mPartialStringData = σ.mPartialStringData)
    (hbinary : τ.mPartialBinaryData = σ.mPartialBinaryData) (hmessages : τ.messages = σ.messages) :
    Received cfg τ := by
  obtain ⟨hf, hr⟩ := more_chunk hc heor σ.read
  refine ⟨?_, ?_, ?_⟩
  · show _ = (Framing.rest empty (pieces τ.read) false).take cfg.mMaxMessageSize
    rw [hmessage, hread, hr]
    cases hn : c.notification
    · rw [Function.update_self]
      rfl
    · rw [Function.update_of_ne (by simp)]
      exact h.message
  · rw [hnotification, Transport.rest, hread, hr]
    cases hn : c.notification
    · rw [Function.update_of_ne (by simp)]
      exact h.notification
    · rw [Function.update_self]
      exact congrArg (· ++ c.data) h.notification
  · rw [Transport.frames, hread, hf, hstring, hbinary, hmessages]
    exact h.handed

/-- The last chunk of a frame: the buffer of its lane is empty, and the frame is handed on. -/
theorem Received.last {c : Chunk} (h : Received cfg σ) (hc : c.data ≠ []) (heor : c.eor = true)
    (hread : τ.read = σ.read ++ [c])
    (hmessage : τ.mPartialMessage = if c.notification then σ.mPartialMessage else [])
    (hnotification : τ.mPartialNotification = if c.notification then [] else σ.mPartialNotification)
    (hhanded : isPart (c.notification, c.info, σ.rest c.notification ++ c.data) = false →
      σ.mPartialStringData = [] → σ.mPartialBinaryData = [] →
      τ.mPartialStringData = [] ∧ τ.mPartialBinaryData = [] ∧
        τ.messages = σ.messages ++ handOn cfg (c.notification, c.info, σ.rest c.notification ++ c.data)) :
    Received cfg τ := by
  obtain ⟨hf, hr⟩ := last_chunk hc heor σ.read
  refine ⟨?_, ?_, ?_⟩
  · rw [hmessage, Transport.rest, hread, hr]
    cases hn : c.notification
    · rw [Function.update_self]
      exact List.take_nil.symm
    · rw [Function.update_of_ne (by simp)]
      exact h.message
  · rw [hnotification, Transport.rest, hread, hr]
    cases hn : c.notification
    · rw [Function.update_of_ne (by simp)]
      exact h.notification
    · rw [Function.update_self]
      rfl
  · intro hp
    rw [Transport.frames, hread, hf] at hp ⊢
    obtain ⟨hs, hb, hm⟩ := h.handed fun x hx => hp x (List.mem_append_left _ hx)
    obtain ⟨hs', hb', hm'⟩ := hhanded (hp _ (List.mem_append_right _ List.mem_cons_self)) hs hb
    refine ⟨hs', hb', ?_⟩
    rw [hm', hm, List.flatMap_append]
    simp

/-- The socket has no part in what was read. -/
theorem Received.inbox (h : Received cfg σ) (inbox : List Chunk) : Received cfg { σ with inbox } :=
  ⟨h.message, h.notification, h.handed⟩

/-- A chunk without data. -/
theorem Received.skip {c : Chunk} (h : Received cfg σ) (hc : c.data = []) :
    Received cfg { σ with read := σ.read ++ [c] } := by
  have hp := pieces_nil hc σ.read
  refine ⟨?_, ?_, ?_⟩
  · show _ = (Framing.rest empty (pieces (σ.read ++ [c])) false).take cfg.mMaxMessageSize
    rw [hp]
    exact h.message
  · show _ = Framing.rest empty (pieces (σ.read ++ [c])) true
    rw [hp]
    exact h.notification
  · show (∀ x ∈ Framing.frames empty (pieces (σ.read ++ [c])), isPart x = false) → _ ∧ _ ∧
      _ = (Framing.frames empty (pieces (σ.read ++ [c]))).flatMap (handOn cfg)
    rw [hp]
    exact h.handed

/-- **Reading.** `doRecv` reads from the front of the socket, and puts together what it reads. -/
theorem Received.loop (h : Received cfg σ) (cs : List Chunk) :
    Received cfg (Transport.doRecv.loop cfg cs σ) ∧
      (Transport.doRecv.loop cfg cs σ).read ++ (Transport.doRecv.loop cfg cs σ).inbox = σ.read ++ cs := by
  induction cs generalizing σ with
  | nil => exact ⟨h.inbox [], rfl⟩
  | cons c cs ih =>
      have hsplit : σ.read ++ c :: cs = (σ.read ++ [c]) ++ cs := by simp
      have hnext : ∀ {τ}, Received cfg τ → τ.read = σ.read ++ [c] →
          Received cfg (Transport.doRecv.loop cfg cs τ) ∧
            (Transport.doRecv.loop cfg cs τ).read ++ (Transport.doRecv.loop cfg cs τ).inbox =
              σ.read ++ c :: cs := by
        intro τ hτ hread
        rw [hsplit, ← hread]
        exact ih hτ
      unfold Transport.doRecv.loop
      by_cases hdown : σ.mState = .Disconnected ∨ σ.mState = .Failed
      · rw [if_pos hdown]
        exact ⟨h.inbox _, rfl⟩
      rw [if_neg hdown]
      dsimp only
      by_cases hc : c.data = []
      · rw [if_pos hc]
        exact ⟨(h.skip hc).inbox cs, hsplit.symm⟩
      rw [if_neg hc]
      cases hn : c.notification with
      | true =>
          rw [if_pos rfl]
          cases heor : c.eor with
          | false =>
              rw [if_neg (by simp)]
              refine hnext (h.more hc heor rfl ?_ ?_ rfl rfl rfl) rfl
              · rw [hn]
                rfl
              · rw [hn]
                rfl
          | true =>
              rw [if_pos rfl]
              have hears := hears_processNotification
                ({ σ with read := σ.read ++ [c], mPartialNotification := [] } : Transport)
                (cfg.notification (σ.mPartialNotification ++ c.data)) (σ.mPartialNotification ++ c.data).length
              refine hnext (h.last hc heor hears.read ?_ ?_ ?_) hears.read
              · rw [hn]
                exact hears.message
              · rw [hn]
                exact hears.notification
              · intro _ hs hb
                refine ⟨hears.stringData.trans hs, hears.binaryData.trans hb, hears.messages.trans ?_⟩
                rw [hn, ← h.notification]
                rfl
      | false =>
          rw [if_neg (by simp)]
          have hcut := cut_eq (σ.rest false) c.data cfg.mMaxMessageSize
          rw [← h.message] at hcut
          rw [hcut]
          cases heor : c.eor with
          | false =>
              rw [if_neg (by simp)]
              refine hnext (h.more hc heor rfl ?_ ?_ rfl rfl rfl) rfl
              · rw [hn]
                rfl
              · rw [hn]
                rfl
          | true =>
              rw [if_pos rfl]
              cases hinfo : c.info with
              | none =>
                  refine ⟨Received.inbox (h.last hc heor (τ := { σ with
                    read := σ.read ++ [c], mPartialMessage := [] }) rfl ?_ ?_ ?_) cs, hsplit.symm⟩
                  · rw [hn]
                    rfl
                  · rw [hn]
                    rfl
                  · intro _ hs hb
                    refine ⟨hs, hb, ?_⟩
                    rw [hn, hinfo]
                    exact (List.append_nil _).symm
              | some info =>
                  obtain ⟨sid, ppid⟩ := info
                  dsimp only
                  obtain ⟨hread, hmessage, hnotification⟩ := processData_frame cfg
                    ({ σ with read := σ.read ++ [c], mPartialMessage := [] } : Transport)
                    ((σ.rest false ++ c.data).take cfg.mMaxMessageSize) sid ppid
                  refine hnext (h.last hc heor hread ?_ ?_ ?_) hread
                  · rw [hn]
                    exact hmessage
                  · rw [hn]
                    exact hnotification
                  · rw [hn, hinfo]
                    intro hpart hs hb
                    have hears := hears_processData cfg
                      (σ := { σ with read := σ.read ++ [c], mPartialMessage := [] }) hs hb
                      ((σ.rest false ++ c.data).take cfg.mMaxMessageSize) sid hpart
                    exact ⟨hears.stringData.trans hs, hears.binaryData.trans hb, hears.messages⟩

/-! ## Runs -/

/-- What a step brings into the socket. -/
def arrives : Act → List Chunk
  | .arrive chunks => chunks
  | _              => []

/-- What a run brings into the socket. -/
def arrived (as : List Act) : List Chunk := as.flatMap arrives

theorem Received.init : Received cfg Transport.init :=
  ⟨List.take_nil.symm, rfl, fun _ => ⟨rfl, rfl, rfl⟩⟩

theorem Received.step (h : Received cfg σ) {a : Act} (hstep : Sctp.step cfg σ a = some τ) :
    Received cfg τ ∧ τ.read ++ τ.inbox = σ.read ++ σ.inbox ++ arrives a := by
  have hsilent : ∀ {τ}, Hears σ [] τ → Received cfg τ ∧ τ.read ++ τ.inbox = σ.read ++ σ.inbox ++ [] := by
    intro τ hτ
    rw [hτ.read, hτ.inbox, List.append_nil]
    exact ⟨h.hears hτ, rfl⟩
  cases a with
  | task answers =>
      by_cases hp : σ.mProcessor.head? = some .doRecv
      · simp only [Sctp.step] at hstep
        split at hstep
        · exact absurd hstep (by simp)
        · rename_i t ts heq
          rw [heq, List.head?_cons] at hp
          obtain rfl := Option.some.inj hp
          obtain rfl := Option.some.inj hstep
          have hstart : Received cfg { σ with
              mProcessor := ts, answers, mPendingRecvCount := σ.mPendingRecvCount - 1 } :=
            ⟨h.message, h.notification, h.handed⟩
          obtain ⟨hr, hlog⟩ := hstart.loop σ.inbox
          exact ⟨hr, hlog.trans (List.append_nil _).symm⟩
      · exact hsilent ((hears_outer σ).step hstep hp (Hears.refl σ))
  | arrive chunks =>
      obtain rfl := Option.some.inj hstep
      exact ⟨h.inbox _, (List.append_assoc ..).symm⟩
  | register stream =>
      simp only [Sctp.step, Option.ite_none_right_eq_some, Option.some.injEq] at hstep
      exact hsilent (hstep.2 ▸ (Hears.refl σ).same rfl rfl rfl rfl rfl rfl rfl)
  | unregister stream =>
      exact hsilent (Option.some.inj hstep ▸ (Hears.refl σ).same rfl rfl rfl rfl rfl rfl rfl)
  | setBufferedAmountLowThreshold stream n =>
      simp only [Sctp.step] at hstep
      split at hstep
      · exact absurd hstep (by simp)
      · exact hsilent (Option.some.inj hstep ▸ (Hears.refl σ).same rfl rfl rfl rfl rfl rfl rfl)
  | _ => exact hsilent ((hears_outer σ).step hstep trivial (Hears.refl σ))

theorem Received.run {as : List Act} (h : exec (Sctp.step cfg) Any σ as = some τ) (hσ : Received cfg σ) :
    Received cfg τ ∧ τ.read ++ τ.inbox = σ.read ++ σ.inbox ++ arrived as := by
  induction as generalizing σ with
  | nil =>
      obtain rfl : σ = τ := by simpa [exec] using h
      exact ⟨hσ, (List.append_nil _).symm⟩
  | cons a as ih =>
      simp only [exec, Any] at h
      obtain ⟨ρ, hρ, hrest⟩ := Option.bind_eq_some_iff.mp h
      obtain ⟨hr, hlog⟩ := hσ.step hρ
      obtain ⟨hr', hlog'⟩ := ih hrest hr
      refine ⟨hr', ?_⟩
      rw [hlog', hlog, List.append_assoc]
      rfl

/-! ## Results -/

theorem received_of_pieces {as : List Act} (h : exec (Sctp.step cfg) Any Transport.init as = some σ)
    (hp : ∀ x ∈ Framing.frames empty (pieces (arrived as)), isPart x = false) :
    σ.read ++ σ.inbox = arrived as ∧
      σ.messages = (Framing.frames empty (pieces σ.read)).flatMap (handOn cfg) := by
  obtain ⟨hr, hlog⟩ := Received.run h Received.init
  have hlog : σ.read ++ σ.inbox = arrived as := hlog
  refine ⟨hlog, (hr.handed ?_).2.2⟩
  intro x hx
  refine hp x ?_
  rw [← hlog, pieces_append, frames_append]
  exact List.mem_append_left _ hx

/-- **Receiving.** In every run, however the messages and notifications that arrive are cut, interleaved and
    read in batches, the transport has read the first part of them, and it handed on the messages and resets
    of the frames that are complete, in order, once each. -/
theorem received_exact {as : List Act} (h : exec (Sctp.step cfg) Any Transport.init as = some σ)
    (hp : ∀ x ∈ Framing.frames empty (pieces (arrived as)), isPart x = false) :
    ∃ read, read ++ σ.inbox = arrived as ∧
      σ.messages = (Framing.frames empty (pieces read)).flatMap (handOn cfg) := by
  exact ⟨σ.read, received_of_pieces h hp⟩

/-- What the peer hands on for a message: its bytes, as far as they fit. An empty control message comes as
    the byte that stands for it. -/
def Outgoing.arriving (cfg : Config) (m : Outgoing) : Nat × Content :=
  (m.stream, m.message.type,
    (if m.message.type = .Control ∧ m.message.data = [] then [0] else m.message.data).take cfg.mMaxMessageSize)

def isReset (x : Nat × Content) : Bool := x.2.1 = .Reset

/-- The frame of a datagram. -/
def Datagram.frame (d : Datagram) : Frame Bool UInt8 (Option (Nat × Nat)) := (false, some (d.sid, d.ppid), d.data)

/-- A datagram that the library sends is handed on as the message that it was. -/
theorem handOn_datagram (cfg : Config) {m : Outgoing} {p : Nat} (hp : ppid m.message = some p) :
    handOn cfg (m.datagram p).frame = [m.arriving cfg] ∧ isPart (m.datagram p).frame = false := by
  obtain ⟨stream, type, data, reliability, source⟩ := m
  unfold ppid at hp
  dsimp only at hp
  cases type with
  | Reset => exact absurd hp (by simp)
  | Control =>
      obtain rfl := Option.some.inj hp
      by_cases hd : data = [] <;>
        simp [handOn, Datagram.frame, Outgoing.datagram, Outgoing.arriving, content?, isPart, partPpid, hd,
          PPID_CONTROL, PPID_STRING_PARTIAL, PPID_BINARY_PARTIAL]
  | String =>
      obtain rfl := Option.some.inj hp
      by_cases hd : data = [] <;>
        simp [handOn, Datagram.frame, Outgoing.datagram, Outgoing.arriving, content?, isPart, partPpid, hd,
          PPID_CONTROL, PPID_STRING, PPID_STRING_EMPTY, PPID_STRING_PARTIAL, PPID_BINARY_PARTIAL]
  | Binary =>
      obtain rfl := Option.some.inj hp
      by_cases hd : data = [] <;>
        simp [handOn, Datagram.frame, Outgoing.datagram, Outgoing.arriving, content?, isPart, partPpid, hd,
          PPID_CONTROL, PPID_STRING, PPID_STRING_EMPTY, PPID_BINARY, PPID_BINARY_EMPTY, PPID_STRING_PARTIAL,
          PPID_BINARY_PARTIAL]

/-- A notification hands on resets only. -/
theorem handOn_resets (cfg : Config) (info : Option (Nat × Nat)) (data : Bytes) :
    (handOn cfg (true, info, data)).filter (fun x => !isReset x) = [] := by
  rw [List.filter_eq_nil_iff]
  intro x hx
  unfold handOn resets at hx
  dsimp only at hx
  split at hx
  · exact absurd hx (by simp)
  · split at hx
    · obtain ⟨s, _, rfl⟩ := List.mem_map.mp hx
      simp [isReset]
    · exact absurd hx (by simp)

/-- A message is not a reset. -/
theorem content?_not_reset {ppid : Nat} {data : Bytes} {c : Content} (h : content? ppid data = some c) :
    c.1 ≠ .Reset := by
  unfold content? at h
  repeat' split at h
  all_goals first | (obtain rfl := Option.some.inj h; simp) | exact absurd h (by simp)

theorem handOn_messages (cfg : Config) (info : Option (Nat × Nat)) (data : Bytes) :
    (handOn cfg (false, info, data)).filter (fun x => !isReset x) = handOn cfg (false, info, data) := by
  rw [List.filter_eq_self]
  intro x hx
  cases info with
  | none => exact absurd hx (by simp [handOn])
  | some info =>
      obtain ⟨sid, ppid⟩ := info
      simp only [handOn, Option.mem_toList, Option.map_eq_some_iff] at hx
      obtain ⟨c, hc, rfl⟩ := hx
      simpa [isReset] using content?_not_reset hc

/-- The frames that are messages, and what is handed on for them. -/
theorem filter_handOn (cfg : Config) (xs : List (Frame Bool UInt8 (Option (Nat × Nat)))) :
    (xs.flatMap (handOn cfg)).filter (fun x => !isReset x) =
      (xs.filter fun x => x.1 = false).flatMap (handOn cfg) := by
  induction xs with
  | nil => rfl
  | cons x xs ih =>
      rw [List.flatMap_cons, List.filter_append, ih]
      obtain ⟨lane, info, data⟩ := x
      cases lane with
      | true =>
          rw [List.filter_cons_of_neg (by simp), handOn_resets, List.nil_append]
      | false =>
          rw [List.filter_cons_of_pos (by simp), List.flatMap_cons, handOn_messages]

/-- The frame of a message, which has a payload id. -/
def Outgoing.frame (m : Outgoing) : Option (Nat × Nat) × Bytes :=
  (some (m.stream, (ppid m.message).getD 0), (m.datagram ((ppid m.message).getD 0)).data)

/-- **Round trip.** Messages that the library sends, cut in any way, interleaved with any notifications and
    read in any batches, are handed on as they were sent, once all of them is read. -/
theorem roundtrip {as : List Act} {ms : List Outgoing} {css : List (List Piece)}
    (h : exec (Sctp.step cfg) Any Transport.init as = some σ)
    (hcut : List.Forall₂ (fun m cs => ∃ p, ppid m.message = some p ∧
      Cut false (some (m.stream, p)) (m.datagram p).data cs) ms css)
    (harrived : ((pieces (arrived as)).filter fun f => f.lane = false) = css.flatten)
    (hread : σ.inbox = []) :
    σ.messages.filter (fun x => !isReset x) = ms.map fun m => m.arriving cfg := by
  have hframes : List.Forall₂ (fun x cs => Cut false x.1 x.2 cs) (ms.map Outgoing.frame) css := by
    refine List.forall₂_map_left_iff.mpr (hcut.imp ?_)
    rintro m cs ⟨p, hp, hm⟩
    rw [Outgoing.frame, hp]
    exact hm
  have hmem : ∀ m ∈ ms, ∃ p, ppid m.message = some p := by
    intro m hm
    obtain ⟨cs, _, p, hp, _⟩ := forall₂_left hcut hm
    exact ⟨p, hp⟩
  have hall := frames_interleaved hframes harrived
  have hpart : ∀ x ∈ Framing.frames empty (pieces (arrived as)), isPart x = false := by
    rintro ⟨lane, info, data⟩ hx
    cases lane with
    | true => rfl
    | false =>
        have hx : (false, info, data) ∈ (ms.map Outgoing.frame).map fun x => (false, x.1, x.2) := by
          rw [← hall]
          exact List.mem_filter.mpr ⟨hx, by simp⟩
        obtain ⟨y, hy, hxy⟩ := List.mem_map.mp hx
        obtain ⟨m, hm, rfl⟩ := List.mem_map.mp hy
        obtain ⟨p, hp⟩ := hmem m hm
        rw [← hxy, Outgoing.frame, hp]
        exact (handOn_datagram cfg hp).2
  obtain ⟨hlog, hmessages⟩ := received_of_pieces h hpart
  rw [hread, List.append_nil] at hlog
  rw [hmessages, filter_handOn, hlog, hall, List.map_map, List.flatMap_map]
  clear hcut hframes hall harrived
  induction ms with
  | nil => rfl
  | cons m ms ih =>
      obtain ⟨p, hp⟩ := hmem m List.mem_cons_self
      have hone := (handOn_datagram cfg hp).1
      rw [List.flatMap_cons, List.map_cons, ih fun m hm => hmem m (List.mem_cons_of_mem _ hm)]
      show handOn cfg (false, m.frame.1, m.frame.2) ++ _ = _
      rw [Outgoing.frame, hp]
      exact congrArg (· ++ ms.map fun m => m.arriving cfg) hone

/-! ## The deprecated payload ids -/

/-- The payload ids of texts and of binaries: of a part, of the end, and of an end without data. -/
structure Kind where
  part  : Nat
  last  : Nat
  empty : Nat
  type  : MessageType

def Kind.string : Kind := ⟨PPID_STRING_PARTIAL, PPID_STRING, PPID_STRING_EMPTY, .String⟩
def Kind.binary : Kind := ⟨PPID_BINARY_PARTIAL, PPID_BINARY, PPID_BINARY_EMPTY, .Binary⟩

/-- The buffer of a kind. -/
def Transport.parts (σ : Transport) (string : Bool) : Bytes :=
  if string then σ.mPartialStringData else σ.mPartialBinaryData

def kind (string : Bool) : Kind := if string then .string else .binary

theorem resize_length (data : Bytes) (size : Nat) : (resize data size).length = size := by
  simp only [resize, List.length_append, List.length_take, List.length_replicate]
  omega

/-- A buffer that was filled up takes nothing more. -/
theorem resize_full {parts : Bytes} {size : Nat} (h : parts.length = size) (data : Bytes) :
    resize (parts ++ data) size = parts := by
  subst h
  rw [resize, List.take_left, List.length_append, Nat.sub_eq_zero_of_le (Nat.le_add_right _ _),
    List.replicate_zero, List.append_nil]

/-- What a part does. -/
theorem processData_part (cfg : Config) (σ : Transport) (string : Bool) (data : Bytes) (sid : Nat) :
    (σ.processData cfg data sid (kind string).part).parts string =
      resize (σ.parts string ++ data) cfg.mMaxMessageSize ∧
    (σ.processData cfg data sid (kind string).part).messages = σ.messages := by
  cases string <;> exact ⟨rfl, rfl⟩

/-- What an end does, with data or without, when there are parts. -/
theorem processData_end (cfg : Config) (string : Bool) (data : Bytes) (sid : Nat) {ppid : Nat}
    (hp : ppid = (kind string).last ∨ ppid = (kind string).empty)
    (hfull : (σ.parts string).length = cfg.mMaxMessageSize) (hpos : 0 < cfg.mMaxMessageSize) :
    (σ.processData cfg data sid ppid).messages =
      σ.messages ++ [(sid, (kind string).type, σ.parts string)] := by
  have hne : σ.parts string ≠ [] := by
    intro hnil
    rw [hnil, List.length_nil] at hfull
    omega
  have hcomplete : complete cfg.mMaxMessageSize (σ.parts string) data = σ.parts string := by
    rw [complete, if_neg hne, resize_full hfull]
  cases string with
  | true =>
      rcases hp with rfl | rfl
      · show (σ.received ++ [some (sid, _, complete cfg.mMaxMessageSize σ.mPartialStringData data)]).filterMap id = _
        rw [messages_snoc]
        exact congrArg (fun b => σ.messages ++ [(sid, Dcep.MessageType.String, b)]) hcomplete
      · exact messages_snoc _ _
  | false =>
      rcases hp with rfl | rfl
      · show (σ.received ++ [some (sid, _, complete cfg.mMaxMessageSize σ.mPartialBinaryData data)]).filterMap id = _
        rw [messages_snoc]
        exact congrArg (fun b => σ.messages ++ [(sid, Dcep.MessageType.Binary, b)]) hcomplete
      · exact messages_snoc _ _

/-- The parts of a message, from any streams. -/
def Transport.processParts (cfg : Config) (σ : Transport) (string : Bool) (ps : List (Nat × Bytes)) : Transport :=
  ps.foldl (fun σ p => σ.processData cfg p.2 p.1 (kind string).part) σ

/-- Once the buffer is full it stays as it is. -/
theorem processParts_full (cfg : Config) {string : Bool} (ps : List (Nat × Bytes))
    (hfull : (σ.parts string).length = cfg.mMaxMessageSize) :
    (σ.processParts cfg string ps).parts string = σ.parts string ∧
      (σ.processParts cfg string ps).messages = σ.messages := by
  induction ps generalizing σ with
  | nil => exact ⟨rfl, rfl⟩
  | cons p ps ih =>
      obtain ⟨hparts, hmessages⟩ := processData_part cfg σ string p.2 p.1
      rw [resize_full hfull] at hparts
      obtain ⟨hp, hm⟩ := ih (hparts ▸ hfull)
      exact ⟨hp.trans hparts, hm.trans hmessages⟩

/-- **The deprecated payload ids.** Of a message that comes in parts only the first part is kept, filled up
    with zeros or cut to `mMaxMessageSize`; the parts behind it and the end are dropped. The parts of all
    streams go into one buffer, so what is handed on comes on the stream of the end. -/
theorem first_part_only (cfg : Config) (σ : Transport) (string : Bool) (first : Nat × Bytes)
    (ps : List (Nat × Bytes)) (sid : Nat) (data : Bytes) {ppid : Nat}
    (hp : ppid = (kind string).last ∨ ppid = (kind string).empty) (hpos : 0 < cfg.mMaxMessageSize)
    (hnil : σ.parts string = []) :
    ((σ.processParts cfg string (first :: ps)).processData cfg data sid ppid).messages =
      σ.messages ++ [(sid, (kind string).type, resize first.2 cfg.mMaxMessageSize)] := by
  obtain ⟨hparts, hmessages⟩ := processData_part cfg σ string first.2 first.1
  rw [hnil, List.nil_append] at hparts
  have hlen : ((σ.processData cfg first.2 first.1 (kind string).part).parts string).length =
      cfg.mMaxMessageSize := by
    rw [hparts, resize_length]
  obtain ⟨hall, hsame⟩ := processParts_full cfg ps hlen
  have hend := processData_end cfg string data sid hp (hall ▸ hlen) hpos
  rw [hall, hparts, hsame, hmessages] at hend
  exact hend

/-! ## A run -/

/-- A text in two chunks with a notification between them, and empty bytes. -/
def chunks : List Chunk :=
  [{ data := [104], notification := false, eor := false, info := none },
    { data := [10, 0, 0, 0, 12, 0, 0, 0, 0, 0, 0, 0], notification := true, eor := true, info := none },
    { data := [105], notification := false, eor := true, info := some (0, PPID_STRING) },
    { data := [0], notification := false, eor := true, info := some (2, PPID_BINARY_EMPTY) }]

def reading : List Act := connect ++ [.arrive chunks, .upcall true false, .task []]

theorem received_exact_reading :
    ∃ σ read, exec (Sctp.step machine) Any Transport.init reading = some σ ∧
      read ++ σ.inbox = arrived reading ∧
      σ.messages = (Framing.frames empty (pieces read)).flatMap (handOn machine) := by
  have h : exec (Sctp.step machine) Any Transport.init reading = some _ := rfl
  obtain ⟨read, hlog, hmessages⟩ := received_exact h (by decide)
  exact ⟨_, read, rfl, hlog, hmessages⟩

def bytes (stream : Nat) (data : Bytes) : Outgoing :=
  { stream, message := { type := .Binary, data, reliability := none, source := none } }

theorem roundtrip_reading :
    ∃ σ, exec (Sctp.step machine) Any Transport.init reading = some σ ∧
      σ.messages.filter (fun x => !isReset x) = [(0, .String, [104, 105]), (2, .Binary, [])] := by
  have h : exec (Sctp.step machine) Any Transport.init reading = some _ := rfl
  have hcut : List.Forall₂ (fun m cs => ∃ p, ppid m.message = some p ∧
      Cut false (some (m.stream, p)) (m.datagram p).data cs) [text 0 [104, 105], bytes 2 []]
      [[⟨false, [104], none⟩, ⟨false, [105], some (some (0, 51))⟩], [⟨false, [0], some (some (2, 57))⟩]] :=
    .cons ⟨51, rfl, by decide, rfl, rfl, by decide⟩ (.cons ⟨57, rfl, by decide, rfl, rfl, by decide⟩ .nil)
  exact ⟨_, rfl, roundtrip h hcut rfl rfl⟩

theorem first_part_only_init :
    ((Transport.init.processParts machine true [(0, [1, 2]), (2, [3])]).processData machine [4] 4 PPID_STRING).messages =
      [(4, .String, [1, 2, 0, 0, 0, 0, 0, 0])] :=
  first_part_only machine Transport.init true (0, [1, 2]) [(2, [3])] 4 [4] (.inl rfl) (by decide) rfl

end HxDatachannel.Sctp
