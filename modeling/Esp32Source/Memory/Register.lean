import Mathlib.Tactic.Common

/-!
# Bits and fields of a device register

A driver changes one bit of a register by a read, a mask and a write.  These
lemmas read every bit of the register after such a change.

Where a register has a field of several bits for each pin, an AND mask and an
OR mask act on each field on its own, with the part of the mask that stands
there.
-/

namespace Esp32Source.Memory

variable {width : Nat}

/-- The bits of the mask `1 << position`. -/
theorem getLsbD_one_shiftLeft (position index : Nat)
    (bound : position < width) :
    (BitVec.ofNat width 1 <<< position).getLsbD index =
      decide (index = position) := by
  rw [BitVec.getLsbD_shiftLeft, BitVec.getLsbD_one]
  by_cases same : index = position
  · subst same
    simp [bound, Nat.lt_of_le_of_lt (Nat.zero_le index) bound]
  · by_cases below : index < position
    · simp [below, same]
    · have positive : index - position ≠ 0 := by omega
      simp [positive, same]

/-- `register |= 1 << position` sets one bit and keeps the others. -/
theorem getLsbD_setBit (register : BitVec width) (position index : Nat)
    (bound : position < width) :
    (register ||| (BitVec.ofNat width 1 <<< position)).getLsbD index =
      if index = position then true else register.getLsbD index := by
  rw [BitVec.getLsbD_or, getLsbD_one_shiftLeft position index bound]
  by_cases same : index = position <;> simp [same]

/-- `register &= ~(1 << position)` clears one bit and keeps the others. -/
theorem getLsbD_clearBit (register : BitVec width) (position index : Nat)
    (bound : position < width) :
    (register &&& ~~~(BitVec.ofNat width 1 <<< position)).getLsbD index =
      if index = position then false else register.getLsbD index := by
  rw [BitVec.getLsbD_and, BitVec.getLsbD_not,
    getLsbD_one_shiftLeft position index bound]
  by_cases same : index = position
  · simp [same]
  · by_cases inside : index < width
    · simp [same, inside]
    · simp [same, BitVec.getLsbD_of_ge register index (by omega)]

/-- `(register >> position) & 1` is zero exactly when the bit is clear. -/
theorem shiftRight_and_one_eq_zero_iff
    (register : BitVec width) (position : Nat) :
    (register >>> position) &&& BitVec.ofNat width 1 = BitVec.ofNat width 0 ↔
      register.getLsbD position = false := by
  rw [BitVec.and_one_eq_setWidth_ofBool_getLsbD,
    BitVec.getLsbD_ushiftRight, Nat.add_zero]
  cases bit : register.getLsbD position with
  | false =>
      simp
  | true =>
      have bound : position < width := BitVec.lt_of_getLsbD bit
      have positive : 0 < width := by omega
      constructor
      · intro equality
        have lowBit := congrArg (fun vector => vector.getLsbD 0) equality
        simp [positive] at lowBit
      · intro equality
        cases equality

/-! ## Fields -/

/-- The `size` bits of the register that start at a multiple of `stride`. -/
def field (register : BitVec width) (stride size index : Nat) :
    BitVec size :=
  register.extractLsb' (stride * index) size

section Field

variable (register mask : BitVec width) (stride size index : Nat)

theorem field_and :
    field (register &&& mask) stride size index =
      field register stride size index &&& field mask stride size index :=
  BitVec.extractLsb'_and

theorem field_or :
    field (register ||| mask) stride size index =
      field register stride size index ||| field mask stride size index :=
  BitVec.extractLsb'_or

theorem getLsbD_field {bit : Nat} (inside : bit < size) :
    (field register stride size index).getLsbD bit =
      register.getLsbD (stride * index + bit) := by
  rw [field, BitVec.getLsbD_extractLsb']
  simp [inside]

/-- A mask that is all ones in a field keeps it under AND. -/
theorem field_and_of_ones
    (ones : field mask stride size index = BitVec.allOnes size) :
    field (register &&& mask) stride size index =
      field register stride size index := by
  rw [field_and, ones, BitVec.and_allOnes]

/-- A mask that is zero in a field keeps it under OR. -/
theorem field_or_of_zeros
    (zeros : field mask stride size index = BitVec.ofNat size 0) :
    field (register ||| mask) stride size index =
      field register stride size index := by
  rw [field_or, zeros, BitVec.or_zero]

end Field

end Esp32Source.Memory
