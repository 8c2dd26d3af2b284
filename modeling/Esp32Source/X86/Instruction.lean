import Esp32Source.Memory.Word

/-!
# Instructions of the 8086

Some instructions and their encodings.  An instruction is generic in how its
word and its jump target are given: a program names them, and the processor
reads a number, and a displacement that counts from the end of the
instruction.

No more than the instruction itself is needed to decode it, so that an encoding
is decoded whatever stands behind it.
-/

namespace Esp32Source.X86

open Memory

abbrev Word : Type := BitVec 16

/-! ## Words and their bytes -/

def lowByte (word : Word) : UInt8 :=
  UInt8.ofNat word.toNat

def highByte (word : Word) : UInt8 :=
  UInt8.ofNat (word.toNat / 256)

def wordOf (low high : UInt8) : Word :=
  BitVec.ofNat 16 (low.toNat + 256 * high.toNat)

theorem toNat_wordOf (low high : UInt8) :
    (wordOf low high).toNat = low.toNat + 256 * high.toNat := by
  have lowSmall := low.toNat_lt
  have highSmall := high.toNat_lt
  rw [wordOf, BitVec.toNat_ofNat]
  omega

@[simp]
theorem lowByte_wordOf (low high : UInt8) :
    lowByte (wordOf low high) = low := by
  have small := low.toNat_lt
  apply UInt8.toNat_inj.mp
  rw [lowByte, UInt8.toNat_ofNat', toNat_wordOf]
  omega

@[simp]
theorem highByte_wordOf (low high : UInt8) :
    highByte (wordOf low high) = high := by
  have lowSmall := low.toNat_lt
  have highSmall := high.toNat_lt
  apply UInt8.toNat_inj.mp
  rw [highByte, UInt8.toNat_ofNat', toNat_wordOf]
  omega

@[simp]
theorem wordOf_lowByte_highByte (word : Word) :
    wordOf (lowByte word) (highByte word) = word := by
  have small := word.isLt
  apply BitVec.eq_of_toNat_eq
  rw [toNat_wordOf, lowByte, highByte, UInt8.toNat_ofNat',
    UInt8.toNat_ofNat']
  omega

def wordBytes (word : Word) : List UInt8 :=
  [lowByte word, highByte word]

/-! ## Instructions -/

/-- The registers of a word, in the order of their codes. -/
inductive Register where
  | ax
  | cx
  | dx
  | bx
  | sp
  | bp
  | si
  | di
  deriving DecidableEq, Repr

/-- The registers of a byte, in the order of their codes. -/
inductive ByteRegister where
  | al
  | cl
  | dl
  | bl
  | ah
  | ch
  | dh
  | bh
  deriving DecidableEq, Repr

inductive Instruction (Value Target : Type) where
  | movWord (register : Register) (value : Value)
  | movByte (register : ByteRegister) (value : UInt8)
  | lodsb
  /-- `cmp al` with a number -/
  | cmpAl (value : UInt8)
  /-- the short `je` -/
  | je (target : Target)
  /-- the short `jmp` -/
  | jmp (target : Target)
  | call (target : Target)
  | ret
  | int (vector : UInt8)
  deriving DecidableEq, Repr

/-- The length of the encoding. -/
def Instruction.size {Value Target : Type} :
    Instruction Value Target → Nat
  | .movWord _ _ => 3
  | .movByte _ _ => 2
  | .lodsb => 1
  | .cmpAl _ => 2
  | .je _ => 2
  | .jmp _ => 2
  | .call _ => 3
  | .ret => 1
  | .int _ => 2

theorem Instruction.size_le {Value Target : Type}
    (instruction : Instruction Value Target) : instruction.size ≤ 3 := by
  cases instruction <;> simp [size]

/-! ## Encodings -/

def Register.code : Register → Nat
  | .ax => 0
  | .cx => 1
  | .dx => 2
  | .bx => 3
  | .sp => 4
  | .bp => 5
  | .si => 6
  | .di => 7

def ByteRegister.code : ByteRegister → Nat
  | .al => 0
  | .cl => 1
  | .dl => 2
  | .bl => 3
  | .ah => 4
  | .ch => 5
  | .dh => 6
  | .bh => 7

/-- The displacement in a short jump. -/
def displacementOf (byte : UInt8) : Word :=
  byte.toBitVec.signExtend 16

/-- The byte of a displacement, if it has one. -/
def shortDisplacement (displacement : Word) : Option UInt8 :=
  let byte := lowByte displacement
  if displacementOf byte = displacement then some byte else none

/-- The bytes of an instruction; a jump out of the reach of a byte has
none. -/
def Instruction.encoding :
    Instruction Word Word → Option (List UInt8)
  | .movWord register value =>
      some (UInt8.ofNat (0xB8 + register.code) :: wordBytes value)
  | .movByte register value =>
      some [UInt8.ofNat (0xB0 + register.code), value]
  | .lodsb => some [0xAC]
  | .cmpAl value => some [0x3C, value]
  | .je displacement =>
      (shortDisplacement displacement).map fun byte => [0x74, byte]
  | .jmp displacement =>
      (shortDisplacement displacement).map fun byte => [0xEB, byte]
  | .call displacement => some (0xE8 :: wordBytes displacement)
  | .ret => some [0xC3]
  | .int vector => some [0xCD, vector]

/-- The instruction at the front of the bytes, if it is one of these. -/
def Instruction.ofBytes : List UInt8 → Option (Instruction Word Word)
  | 0xAC :: _ => some .lodsb
  | 0x3C :: value :: _ => some (.cmpAl value)
  | 0x74 :: byte :: _ => some (.je (displacementOf byte))
  | 0xEB :: byte :: _ => some (.jmp (displacementOf byte))
  | 0xE8 :: low :: high :: _ => some (.call (wordOf low high))
  | 0xC3 :: _ => some .ret
  | 0xCD :: vector :: _ => some (.int vector)
  | 0xB0 :: value :: _ => some (.movByte .al value)
  | 0xB1 :: value :: _ => some (.movByte .cl value)
  | 0xB2 :: value :: _ => some (.movByte .dl value)
  | 0xB3 :: value :: _ => some (.movByte .bl value)
  | 0xB4 :: value :: _ => some (.movByte .ah value)
  | 0xB5 :: value :: _ => some (.movByte .ch value)
  | 0xB6 :: value :: _ => some (.movByte .dh value)
  | 0xB7 :: value :: _ => some (.movByte .bh value)
  | 0xB8 :: low :: high :: _ => some (.movWord .ax (wordOf low high))
  | 0xB9 :: low :: high :: _ => some (.movWord .cx (wordOf low high))
  | 0xBA :: low :: high :: _ => some (.movWord .dx (wordOf low high))
  | 0xBB :: low :: high :: _ => some (.movWord .bx (wordOf low high))
  | 0xBC :: low :: high :: _ => some (.movWord .sp (wordOf low high))
  | 0xBD :: low :: high :: _ => some (.movWord .bp (wordOf low high))
  | 0xBE :: low :: high :: _ => some (.movWord .si (wordOf low high))
  | 0xBF :: low :: high :: _ => some (.movWord .di (wordOf low high))
  | _ => none

theorem shortDisplacement_eq_some {displacement : Word} {byte : UInt8}
    (isShort : shortDisplacement displacement = some byte) :
    displacementOf byte = displacement := by
  rw [shortDisplacement] at isShort
  split at isShort
  case isTrue same =>
    cases isShort
    exact same
  case isFalse =>
    cases isShort

theorem Instruction.length_encoding {instruction : Instruction Word Word}
    {bytes : List UInt8} (encodes : instruction.encoding = some bytes) :
    bytes.length = instruction.size := by
  cases instruction with
  | je displacement =>
      obtain ⟨byte, _, isBytes⟩ := Option.map_eq_some_iff.mp encodes
      rw [← isBytes]
      rfl
  | jmp displacement =>
      obtain ⟨byte, _, isBytes⟩ := Option.map_eq_some_iff.mp encodes
      rw [← isBytes]
      rfl
  | _ =>
      cases encodes
      rfl

/-- An instruction is decoded from its encoding, whatever stands behind. -/
theorem Instruction.ofBytes_encoding {instruction : Instruction Word Word}
    {bytes : List UInt8} (encodes : instruction.encoding = some bytes)
    (behind : List UInt8) :
    ofBytes (bytes ++ behind) = some instruction := by
  cases instruction with
  | movWord register value =>
      cases encodes
      have decodes : ofBytes (UInt8.ofNat (0xB8 + register.code) ::
          wordBytes value ++ behind) =
          some (.movWord register
            (wordOf (lowByte value) (highByte value))) := by
        cases register <;> rfl
      rw [decodes, wordOf_lowByte_highByte]
  | movByte register value =>
      cases encodes
      cases register <;> rfl
  | je displacement =>
      obtain ⟨byte, isShort, isBytes⟩ := Option.map_eq_some_iff.mp encodes
      rw [← isBytes, ← shortDisplacement_eq_some isShort]
      rfl
  | jmp displacement =>
      obtain ⟨byte, isShort, isBytes⟩ := Option.map_eq_some_iff.mp encodes
      rw [← isBytes, ← shortDisplacement_eq_some isShort]
      rfl
  | call displacement =>
      cases encodes
      have decodes : ofBytes (0xE8 :: wordBytes displacement ++ behind) =
          some (.call
            (wordOf (lowByte displacement) (highByte displacement))) := rfl
      rw [decodes, wordOf_lowByte_highByte]
  | _ =>
      cases encodes
      rfl

end Esp32Source.X86
