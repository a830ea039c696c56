import HxDatachannel.Binding.Payload

/-!
# `Binding.Text` — strings that pass through C strings

HashLink hands a Haxe string to C as NUL-terminated UTF-8, and reads one back with `String.fromUTF8`. A string
without NUL characters survives this (`fromUTF8_utf8`), and its bytes determine it (`utf8_injective`).
-/

namespace HxDatachannel

/-- The bytes of a C string. -/
def cstring (b : Bytes) : Bytes := b.takeWhile (· ≠ 0)

/-- `String.fromUTF8` on the bytes of a pointer; `none` where these are no UTF-8. -/
def fromUTF8 (b : Bytes) : Option String := String.fromUTF8? (cstring b).toByteArray

/-! ## The bytes of a string -/

theorem utf8_eq (s : String) : utf8 s = s.toByteArray.data.toList := by
  have hs : s.toByteArray = s.toList.utf8Encode := by
    rw [← String.toByteArray_ofList, String.ofList_toList]
  rw [hs, List.utf8Encode, List.toList_data_toByteArray]
  rfl

theorem toByteArray_utf8 (s : String) : (utf8 s).toByteArray = s.toByteArray := by
  rw [utf8_eq]
  exact ByteArray.ext (by simp)

/-- **A string is determined by its bytes.** -/
theorem utf8_injective : Function.Injective utf8 := by
  intro s t h
  apply String.toByteArray_inj.mp
  rw [← toByteArray_utf8 s, ← toByteArray_utf8 t, h]

/-! ## NUL characters -/

theorem ofNat_ne_zero {n : Nat} (hn : n < 256) (h0 : 0 < n) : (0 : UInt8) ≠ UInt8.ofNat n := by
  intro h
  have hnat := congrArg UInt8.toNat h
  rw [UInt8.toNat_ofNat_of_lt' hn, UInt8.toNat_zero] at hnat
  omega

/-- Only the NUL character has a NUL in its encoding. -/
theorem zero_mem_utf8EncodeChar {c : Char} (h : 0 ∈ String.utf8EncodeChar c) : c.val = 0 := by
  unfold String.utf8EncodeChar at h
  simp only at h
  split at h
  · rename_i hle
    rw [List.mem_singleton] at h
    by_contra hc
    refine ofNat_ne_zero (by omega) ?_ h
    exact Nat.pos_of_ne_zero fun h0 => hc (UInt32.toNat_inj.mp h0)
  · -- the bytes of a longer encoding have their high bit set
    split at h
    · simp only [List.mem_cons, List.not_mem_nil, or_false] at h
      rcases h with h | h <;> exact absurd h (ofNat_ne_zero (by omega) (by omega))
    · split at h
      · simp only [List.mem_cons, List.not_mem_nil, or_false] at h
        rcases h with h | h | h <;> exact absurd h (ofNat_ne_zero (by omega) (by omega))
      · simp only [List.mem_cons, List.not_mem_nil, or_false] at h
        rcases h with h | h | h | h <;> exact absurd h (ofNat_ne_zero (by omega) (by omega))

/-- A string has a NUL among its bytes iff it has a NUL character. -/
theorem zero_mem_utf8 (s : String) : 0 ∈ utf8 s ↔ ∃ c ∈ s.toList, c.val = 0 := by
  rw [utf8, List.mem_flatMap]
  constructor
  · rintro ⟨c, hc, h0⟩
    exact ⟨c, hc, zero_mem_utf8EncodeChar h0⟩
  · rintro ⟨c, hc, h0⟩
    refine ⟨c, hc, ?_⟩
    simp [String.utf8EncodeChar, h0]

/-! ## Through a C string and back -/

theorem cstring_eq_self {b : Bytes} : cstring b = b ↔ 0 ∉ b := by
  rw [cstring, List.takeWhile_eq_self_iff]
  exact ⟨fun h hmem => absurd (h 0 hmem) (by simp), fun h x hx => by
    simpa using fun h0 : x = 0 => h (h0 ▸ hx)⟩

theorem cstring_copyString (b : Bytes) : cstring (copyString b) = cstring b := by
  rw [cstring, copyString, takeWhile_terminated, take_strlen]
  exact List.takeWhile_takeWhile .. |>.trans (by simp [cstring])

/-- **A string without NUL survives.** What C keeps of it and hands back with a terminator is the string. -/
theorem fromUTF8_utf8 {s : String} (h : 0 ∉ utf8 s) : fromUTF8 (copyString (utf8 s)) = some s := by
  have hvalid : s.toByteArray.IsValidUTF8 := s.isValidUTF8
  rw [fromUTF8, cstring_copyString, cstring_eq_self.mpr h, toByteArray_utf8, String.fromUTF8?, dif_pos hvalid]
  rfl

/-! ## Through the buffer for labels -/

/-- The second argument of the closure that `process_events` calls for an announced channel. -/
def announcedName (label buffer : Bytes) : Bytes :=
  match rtcGetDataChannelLabel label buffer with
  | some b => b.take 256
  | none   => unnamed

theorem cstring_append {b : Bytes} (h : 0 ∉ b) (rest : Bytes) : cstring (b ++ 0 :: rest) = b := by
  have hpos : ∀ x ∈ b, decide (x ≠ 0) = true := by
    intro x hx
    simpa using fun h0 : x = 0 => h (h0 ▸ hx)
  rw [cstring, List.takeWhile_append_of_pos hpos]
  simp

/-- What is read from a pointer are the bytes of the C string there. -/
theorem utf8_of_fromUTF8 {b : Bytes} {s : String} (h : fromUTF8 b = some s) : utf8 s = cstring b := by
  unfold fromUTF8 String.fromUTF8? at h
  split at h
  · obtain rfl := Option.some.inj h
    rw [utf8_eq]
    simp [String.fromUTF8]
  · exact absurd h (by simp)

theorem fromUTF8_of_cstring {b : Bytes} {s : String} (h : cstring b = utf8 s) : fromUTF8 b = some s := by
  have h0 : 0 ∉ utf8 s := by
    rw [← cstring_eq_self, ← h]
    exact List.takeWhile_takeWhile .. |>.trans (by simp [cstring])
  rw [← fromUTF8_utf8 h0, fromUTF8, fromUTF8, cstring_copyString, h, cstring_eq_self.mpr h0]

/-- **The name that the buffer leaves.** A label comes back as it is iff it fits, with its terminator. -/
theorem announcedName_iff {s : String} (h0 : 0 ∉ utf8 s) (buffer : Bytes) :
    fromUTF8 (announcedName (utf8 s) buffer) = some s ↔ (utf8 s).length ≤ 255 := by
  unfold announcedName rtcGetDataChannelLabel
  by_cases hlen : 256 < (utf8 s).length + 1
  · rw [if_pos hlen]
    constructor
    · intro h
      -- the fallback is shorter than any label that needs it
      have hunnamed : (cstring unnamed).length = 7 := by decide
      rw [← utf8_of_fromUTF8 h] at hunnamed
      omega
    · intro h
      omega
  · rw [if_neg hlen]
    refine ⟨fun _ => by omega, fun _ => fromUTF8_of_cstring ?_⟩
    show cstring ((utf8 s ++ [0] ++ _).take 256) = utf8 s
    have hfit : (utf8 s ++ [0]).length ≤ 256 := by
      rw [List.length_append, List.length_singleton]
      omega
    rw [List.take_append, List.take_of_length_le hfit, List.append_assoc]
    exact cstring_append h0 _

end HxDatachannel
