import Mathlib.Algebra.Group.Nat.Defs

/-!
# `Base.BigEndian` — numbers as bytes of a fixed count, most significant first

`encode k n` keeps the low `k` bytes of `n`; `decode` reads any number of bytes. Each is the inverse of
the other between the numbers below `256 ^ k` and the lists of `k` bytes.
-/

namespace BigEndian

/-- The low `k` bytes of `n`, most significant first. -/
def encode : Nat → Nat → List UInt8
  | 0, _     => []
  | k + 1, n => UInt8.ofNat (n / 256 ^ k) :: encode k n

/-- The number that bytes spell. -/
def decode : List UInt8 → Nat
  | []      => 0
  | b :: bs => b.toNat * 256 ^ bs.length + decode bs

@[simp] theorem length_encode (k n : Nat) : (encode k n).length = k := by
  induction k with
  | zero => rfl
  | succ k ih => rw [encode, List.length_cons, ih]

/-- Bytes spell a number that fits in them. -/
theorem decode_lt (bs : List UInt8) : decode bs < 256 ^ bs.length := by
  induction bs with
  | nil => decide
  | cons b bs ih =>
      have hb : b.toNat + 1 ≤ 256 := b.toNat_lt
      show b.toNat * 256 ^ bs.length + decode bs < 256 ^ (bs.length + 1)
      calc b.toNat * 256 ^ bs.length + decode bs
          < (b.toNat + 1) * 256 ^ bs.length := by rw [Nat.succ_mul]; omega
        _ ≤ 256 * 256 ^ bs.length := Nat.mul_le_mul_right _ hb
        _ = 256 ^ (bs.length + 1) := by rw [Nat.pow_succ, Nat.mul_comm]

/-- What was written is read, up to the bytes that were not kept. -/
theorem decode_encode (k n : Nat) : decode (encode k n) = n % 256 ^ k := by
  induction k with
  | zero => rw [Nat.pow_zero, Nat.mod_one]; rfl
  | succ k ih =>
      have hbyte : (UInt8.ofNat (n / 256 ^ k)).toNat = n / 256 ^ k % 256 := UInt8.toNat_ofNat'
      rw [encode, decode, hbyte, length_encode, ih, Nat.mod_pow_succ, Nat.mul_comm, Nat.add_comm]

theorem decode_encode_of_lt {k n : Nat} (h : n < 256 ^ k) : decode (encode k n) = n := by
  rw [decode_encode, Nat.mod_eq_of_lt h]

/-- The bytes above the low `k` do not count. -/
theorem encode_mul_add (k m n : Nat) : encode k (m * 256 ^ k + n) = encode k n := by
  induction k generalizing m with
  | zero => rfl
  | succ k ih =>
      have hhigh : m * 256 ^ (k + 1) + n = (m * 256) * 256 ^ k + n := by
        rw [Nat.pow_succ, Nat.mul_comm (256 ^ k), Nat.mul_assoc]
      have hpos : 0 < 256 ^ k := Nat.pow_pos (by decide)
      have hbyte : UInt8.ofNat (m * 256 + n / 256 ^ k) = UInt8.ofNat (n / 256 ^ k) := by
        rw [← UInt8.toNat_inj, UInt8.toNat_ofNat', UInt8.toNat_ofNat', Nat.mul_add_mod']
      rw [hhigh, encode, encode, ih, Nat.mul_comm (m * 256), Nat.mul_add_div hpos, hbyte]

/-- What was read is what was written. -/
theorem encode_decode (bs : List UInt8) : encode bs.length (decode bs) = bs := by
  induction bs with
  | nil => rfl
  | cons b bs ih =>
      have hlt := decode_lt bs
      have hpos : 0 < 256 ^ bs.length := Nat.pow_pos (by decide)
      have hhead : decode (b :: bs) / 256 ^ bs.length = b.toNat := by
        rw [decode, Nat.mul_comm, Nat.mul_add_div hpos, Nat.div_eq_of_lt hlt, Nat.add_zero]
      rw [List.length_cons, encode, hhead, UInt8.ofNat_toNat, decode, encode_mul_add, ih]

end BigEndian
