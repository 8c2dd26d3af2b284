import Esp32Source.Memory.CString
import Mathlib.Algebra.Group.Nat.Defs

/-!
# Little-endian words

A number is kept in memory as its digits to the base 256, the least digit
first.
-/

namespace Esp32Source.Memory

/-- The `count` lowest bytes of a number. -/
def encode : Nat → Nat → List UInt8
  | 0, _ => []
  | count + 1, value => UInt8.ofNat value :: encode count (value / 256)

def decode : List UInt8 → Nat
  | [] => 0
  | byte :: bytes => byte.toNat + 256 * decode bytes

@[simp]
theorem length_encode (count value : Nat) :
    (encode count value).length = count := by
  induction count generalizing value with
  | zero =>
      rfl
  | succ count inductionHypothesis =>
      rw [encode, List.length_cons, inductionHypothesis]

/-- A number that fits is read back. -/
theorem decode_encode {count value : Nat} (fits : value < 256 ^ count) :
    decode (encode count value) = value := by
  induction count generalizing value with
  | zero =>
      rw [Nat.pow_zero] at fits
      rw [encode, decode]
      omega
  | succ count inductionHypothesis =>
      have restFits : value / 256 < 256 ^ count := by
        apply Nat.div_lt_of_lt_mul
        rw [Nat.pow_succ, Nat.mul_comm] at fits
        exact fits
      rw [encode, decode, inductionHypothesis restFits, UInt8.toNat_ofNat']
      omega

/-- A byte is a digit of the number that all of them encode. -/
theorem ofNat_decode_div (bytes : List UInt8) (index : Nat) :
    UInt8.ofNat (decode bytes / 256 ^ index) = bytes.getD index 0 := by
  induction bytes generalizing index with
  | nil =>
      rw [decode, Nat.zero_div]
      rfl
  | cons byte bytes inductionHypothesis =>
      have small := byte.toNat_lt
      cases index with
      | zero =>
          rw [Nat.pow_zero, Nat.div_one, decode, List.getD_cons_zero]
          apply UInt8.toNat_inj.mp
          rw [UInt8.toNat_ofNat']
          omega
      | succ index =>
          have shifted :
              decode (byte :: bytes) / 256 ^ (index + 1) =
                decode bytes / 256 ^ index := by
            rw [Nat.pow_succ, Nat.mul_comm, ← Nat.div_div_eq_div_mul,
              decode]
            congr 1
            omega
          rw [shifted, inductionHypothesis, List.getD_cons_succ]

/-- The first bytes are the number modulo their range. -/
theorem decode_take_encode {size count : Nat} (fits : count ≤ size)
    (value : Nat) :
    decode ((encode size value).take count) = value % 256 ^ count := by
  induction count generalizing size value with
  | zero =>
      rw [List.take_zero, Nat.pow_zero, Nat.mod_one]
      rfl
  | succ count inductionHypothesis =>
      obtain ⟨size, rfl⟩ := Nat.exists_eq_succ_of_ne_zero
        (Nat.ne_of_gt (Nat.lt_of_lt_of_le (Nat.succ_pos count) fits))
      rw [encode, List.take_succ_cons, decode,
        inductionHypothesis (Nat.le_of_succ_le_succ fits), Nat.pow_succ,
        Nat.mul_comm (256 ^ count), Nat.mod_mul, UInt8.toNat_ofNat']

/-- Zeros behind the bytes do not change the number. -/
theorem decode_append_zeros (bytes : List UInt8) (count : Nat) :
    decode (bytes ++ List.replicate count 0) = decode bytes := by
  induction bytes with
  | nil =>
      rw [List.nil_append, decode]
      induction count with
      | zero =>
          rfl
      | succ count inductionHypothesis =>
          rw [List.replicate_succ, decode, inductionHypothesis]
          rfl
  | cons byte bytes inductionHypothesis =>
      rw [List.cons_append, decode, inductionHypothesis, decode]

end Esp32Source.Memory
