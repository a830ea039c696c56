import HxDatachannel.Binding.CallbackResult
import Mathlib.Data.List.TakeWhile

/-!
# `Binding.Payload` — what the receiver gets of what was sent

A payload goes from `sendMessage` or `sendBytes` of either backend over the wire, as text or as binary, to
`onMessage` of either backend. On HL the receiving path is a C callback that tells the two kinds apart by
the sign of a size, a node of the event queue, and the closure that turns bytes and a length into
`haxe.io.Bytes`. `payload_delivered` says for each of the four pairs exactly which payloads arrive as they
were sent.
-/

namespace HxDatachannel

/-! ## Values -/

inductive Backend where
  | HL
  | JS
deriving DecidableEq, Repr

/-- The UTF-8 encoding of a string. -/
def utf8 (s : String) : Bytes := s.toList.flatMap String.utf8EncodeChar

/-- `haxe.io.Bytes`: a buffer, of which the first `length` bytes count. `getData` returns the buffer. -/
structure HaxeBytes where
  buffer : Bytes
  length : Nat
  le     : length ≤ buffer.length

/-- The bytes that count. -/
def HaxeBytes.content (b : HaxeBytes) : Bytes := b.buffer.take b.length

/-- `haxe.io.Bytes.ofString`. -/
def HaxeBytes.ofString (s : String) : HaxeBytes := ⟨utf8 s, (utf8 s).length, Nat.le_refl _⟩

/-- A message on the wire, with its kind. -/
inductive Wire where
  | text (s : String)
  | binary (b : Bytes)
deriving DecidableEq, Repr

/-- The argument of a call of `onMessage`. In JavaScript a string can be passed where the declared type is
    `haxe.io.Bytes`. -/
inductive Received where
  | bytes (content : Bytes)
  | string (s : String)
deriving DecidableEq, Repr

/-! ## Sending -/

/-- `sendMessage`. HL sends the bytes of the string with a size ≥ 0, so as binary. -/
def sendMessage : Backend → String → Wire
  | .HL, m => .binary (HaxeBytes.ofString m).content
  | .JS, m => .text m

/-- `sendBytes`. HL passes the data and the length, JS the whole `ArrayBuffer`. -/
def sendBytes : Backend → HaxeBytes → Wire
  | .HL, b => .binary b.content
  | .JS, b => .binary b.buffer

/-! ## Receiving -/

/-- How libdatachannel hands a message to the message callback: a string as C string with its size
    negated. -/
def rtcMessage : Wire → Bytes × Int
  | .text s   => (utf8 s ++ [0], -(((utf8 s).length + 1 : Nat) : Int))
  | .binary b => (b, (b.length : Nat))

/-- `hl.Bytes.toBytes(l)`; `none` when `l` is not a length within the memory. -/
def toBytes (b : Bytes) (l : Int) : Option Bytes :=
  if 0 ≤ l ∧ l.toNat ≤ b.length then some (b.take l.toNat) else none

/-- The `onMessage` closure of the HL wrapper, on the arguments of `hl_dyn_call`. -/
def onMessageClosure : Option (List Vdynamic) → List Received
  | some [.bytes b, .i32 l] => (toBytes b l).toList.map .bytes
  | _                       => []

/-- The calls of `onMessage` that a message causes at HL channel `d`. -/
def receiveHL (d : Nat) (w : Wire) : List Received :=
  onMessageClosure (messageCallback d (rtcMessage w).1 (rtcMessage w).2).callArgs

/-- The calls of `onMessage` that a message causes in the browser. After the call for a string the handler
    goes on and passes the string to `Bytes.ofData`, whose result for a string is left open: some bytes or
    (`none`) an exception. -/
def receiveJS (ofData : String → Option Bytes) : Wire → List Received
  -- the `else {}` is empty, so the last line of the handler runs for a string too
  | .text s   => .string s :: (ofData s).toList.map .bytes
  | .binary b => [.bytes b]

/-- The calls of `onMessage` at the receiver. -/
def receive (ofData : String → Option Bytes) (d : Nat) : Backend → Wire → List Received
  | .HL, w => receiveHL d w
  | .JS, w => receiveJS ofData w

/-! ## C strings -/

theorem take_strlen (s : Bytes) : s.take (strlen s) = s.takeWhile (· ≠ 0) :=
  (List.prefix_iff_eq_take.mp (List.takeWhile_prefix _)).symm

theorem strlen_le (s : Bytes) : strlen s ≤ s.length := (List.takeWhile_prefix _).length_le

@[simp] theorem copyString_length (s : Bytes) : (copyString s).length = strlen s + 1 := by
  rw [copyString, List.length_append, List.length_take, Nat.min_eq_left (strlen_le s)]
  rfl

/-- A terminator added at the end stops `strlen` no later. -/
theorem takeWhile_terminated (u : Bytes) :
    (u ++ [0]).takeWhile (· ≠ 0) = u.takeWhile (· ≠ 0) := by
  induction u with
  | nil => rfl
  | cons b u ih =>
      by_cases hb : b = 0
      · simp [hb]
      · simp only [List.cons_append, List.takeWhile_cons, hb, ne_eq, not_false_eq_true, decide_true,
          if_true]
        exact congrArg (b :: ·) ih

/-- What is left of `u` when it passes through a C string that keeps its terminator is `u` iff `u` has a
    NUL at its end and no other. -/
theorem cstring_eq_iff (u : Bytes) :
    u.takeWhile (· ≠ 0) ++ [0] = u ↔ ∃ t, u = t ++ [0] ∧ 0 ∉ t := by
  constructor
  · intro h
    refine ⟨u.takeWhile (· ≠ 0), h.symm, ?_⟩
    intro hmem
    have := List.mem_takeWhile_imp hmem
    simp at this
  · rintro ⟨t, rfl, ht⟩
    rw [takeWhile_terminated, List.takeWhile_eq_self_iff.mpr]
    intro b hb
    simpa using fun h0 : b = 0 => ht (h0 ▸ hb)

/-! ## The HL receiver -/

theorem toBytes_all (b : Bytes) : toBytes b (b.length : Nat) = some b := by
  rw [toBytes, if_pos ⟨Int.natCast_nonneg _, Nat.le_refl _⟩]
  simp

theorem receiveHL_binary (d : Nat) (b : Bytes) : receiveHL d (.binary b) = [.bytes b] := by
  have hsize : ¬ ((b.length : Nat) : Int) < 0 := by omega
  simp only [receiveHL, rtcMessage, messageCallback, if_neg hsize, CallbackResult.callArgs, copyArg,
    Int.toNat_natCast, List.take_length, Option.map_some, Option.bind_some, onMessageClosure,
    toBytes_all]
  rfl

/-- A text message arrives up to its first NUL, with a NUL behind it. -/
theorem receiveHL_text (d : Nat) (s : String) :
    receiveHL d (.text s) = [.bytes ((utf8 s).takeWhile (· ≠ 0) ++ [0])] := by
  have hsize : (-(((utf8 s).length + 1 : Nat) : Int)) < 0 := by omega
  have hcopy : (copyString (utf8 s ++ [0])).take (strlen (utf8 s ++ [0]) + 1)
      = copyString (utf8 s ++ [0]) := by
    rw [← copyString_length, List.take_length]
  have hlen : ((strlen (utf8 s ++ [0]) : Int) + 1) = ((copyString (utf8 s ++ [0])).length : Nat) := by
    rw [copyString_length]
    rfl
  simp only [receiveHL, rtcMessage, messageCallback, if_pos hsize, CallbackResult.callArgs, copyArg,
    hcopy, Option.map_some, Option.bind_some, onMessageClosure, hlen, toBytes_all]
  rw [Option.toList_some, copyString, take_strlen, takeWhile_terminated]
  rfl

/-! ## Every pair of backends -/

/-- **Which payloads arrive.** Text sent from HL always arrives as exactly its UTF-8 encoding, in one call
    of `onMessage`. Text sent from JS does iff the receiver is HL and the text ends in a NUL and has no
    other. Bytes sent from HL always arrive, bytes sent from JS iff their buffer has no more than their
    length. -/
theorem payload_delivered (ofData : String → Option Bytes) (d : Nat) (sender receiver : Backend) :
    (∀ s, receive ofData d receiver (sendMessage sender s) = [.bytes (utf8 s)] ↔
      sender = .HL ∨ (receiver = .HL ∧ ∃ t, utf8 s = t ++ [0] ∧ 0 ∉ t)) ∧
    (∀ b, receive ofData d receiver (sendBytes sender b) = [.bytes b.content] ↔
      sender = .HL ∨ b.length = b.buffer.length) := by
  have hstring : ∀ s, (HaxeBytes.ofString s).content = utf8 s := fun s => List.take_length
  have hcontent : ∀ b : HaxeBytes, b.buffer = b.content ↔ b.length = b.buffer.length := by
    intro b
    have hle := b.le
    constructor
    · intro h
      have hlen := congrArg List.length h
      rw [HaxeBytes.content, List.length_take, Nat.min_eq_left hle] at hlen
      exact hlen.symm
    · intro h
      rw [HaxeBytes.content, h, List.take_length]
  constructor
  · intro s
    cases sender with
    | HL =>
        cases receiver <;>
          simp [sendMessage, receive, receiveHL_binary, receiveJS, hstring]
    | JS =>
        cases receiver with
        | HL =>
            simp only [sendMessage, receive, receiveHL_text, List.cons.injEq, Received.bytes.injEq,
              and_true, reduceCtorEq, false_or, true_and]
            exact cstring_eq_iff (utf8 s)
        | JS => simp [sendMessage, receive, receiveJS]
  · intro b
    cases sender with
    | HL => cases receiver <;> simp [sendBytes, receive, receiveHL_binary, receiveJS]
    | JS =>
        cases receiver <;>
          simp only [sendBytes, receive, receiveHL_binary, receiveJS, List.cons.injEq,
            Received.bytes.injEq, and_true, reduceCtorEq, false_or] <;>
          exact hcontent b

/-- **Payloads that do not arrive.** The text `a` from a browser reaches an HL peer with a NUL appended, and
    reaches another browser as a string instead of bytes; two bytes in a buffer of three, as `BytesBuffer`
    builds them, reach the peer as three. -/
theorem payload_damaged :
    receive (fun _ => none) 7 .HL (sendMessage .JS "a") = [.bytes [97, 0]] ∧
    receive (fun _ => none) 7 .JS (sendMessage .JS "a") = [.string "a"] ∧
    receive (fun _ => none) 7 .HL (sendBytes .JS ⟨[1, 2, 0], 2, by decide⟩) = [.bytes [1, 2, 0]] ∧
    utf8 "a" = [97] :=
  ⟨by decide, by decide, by decide, by decide⟩

end HxDatachannel
