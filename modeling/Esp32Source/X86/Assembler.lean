import Esp32Source.X86.Instruction

/-!
# An assembler

A listing has labels, instructions and data.  A label stands for the address of
the line behind it, and the displacement of a jump is the distance from the
end of its instruction.  Jumps are short ones: a target that is out of their
reach is an error, as are an unknown label and a fill to a place that has been
passed.

At the place of every line that is an instruction, the image holds the encoding
of that instruction with its labels resolved.
-/

namespace Esp32Source.X86

open Memory

/-- What an instruction of a listing names. -/
inductive Symbol (Label : Type) where
  | label (name : Label)
  | number (value : Word)
  /-- `$` -/
  | here
  deriving DecidableEq, Repr

inductive Line (Label : Type) where
  | label (name : Label)
  | code (instruction : Instruction (Symbol Label) (Symbol Label))
  | db (bytes : List UInt8)
  /-- `times size-($-$$) db 0` -/
  | fillUpTo (size : Nat)
  | dw (value : Word)
  deriving DecidableEq, Repr

section

variable {Label : Type}

/-- The number of bytes of a line, with that of the lines in front of it. -/
def Line.size (offset : Nat) : Line Label → Nat
  | .label _ => 0
  | .code instruction => instruction.size
  | .db bytes => bytes.length
  | .fillUpTo size => size - offset
  | .dw _ => 2

/-- The end of a listing that begins at an offset. -/
def endOf (offset : Nat) (lines : List (Line Label)) : Nat :=
  lines.foldl (fun offset line => offset + line.size offset) offset

def addressOf [DecidableEq Label] (origin : Word) :
    Nat → List (Line Label) → Label → Option Word
  | _, [], _ => none
  | offset, line :: lines, name =>
      if line = .label name then some (origin + BitVec.ofNat 16 offset)
      else addressOf origin (offset + line.size offset) lines name

def Symbol.value (addresses : Label → Option Word) (address : Word) :
    Symbol Label → Option Word
  | .label name => addresses name
  | .number value => some value
  | .here => some address

/-- The displacement of a target from the end of an instruction. -/
def Symbol.displacement (addresses : Label → Option Word) (address : Word)
    (size : Nat) (target : Symbol Label) : Option Word :=
  (target.value addresses address).map fun found =>
    found - (address + BitVec.ofNat 16 size)

/-- The instruction at an address, with numbers for its symbols. -/
def Instruction.resolve (addresses : Label → Option Word) (address : Word)
    (instruction : Instruction (Symbol Label) (Symbol Label)) :
    Option (Instruction Word Word) :=
  match instruction with
  | .movWord register value =>
      (value.value addresses address).map (.movWord register)
  | .movByte register value => some (.movByte register value)
  | .lodsb => some .lodsb
  | .cmpAl value => some (.cmpAl value)
  | .je target =>
      (target.displacement addresses address instruction.size).map .je
  | .jmp target =>
      (target.displacement addresses address instruction.size).map .jmp
  | .call target =>
      (target.displacement addresses address instruction.size).map .call
  | .ret => some .ret
  | .int vector => some (.int vector)

def Line.assembled (addresses : Label → Option Word) (origin : Word)
    (offset : Nat) : Line Label → Option (List UInt8)
  | .label _ => some []
  | .code instruction =>
      (instruction.resolve addresses
        (origin + BitVec.ofNat 16 offset)).bind Instruction.encoding
  | .db bytes => some bytes
  | .fillUpTo size =>
      if offset ≤ size then some (List.replicate (size - offset) 0) else none
  | .dw value => some (wordBytes value)

def assembleFrom (addresses : Label → Option Word) (origin : Word) :
    Nat → List (Line Label) → Option (List UInt8)
  | _, [] => some []
  | offset, line :: lines => do
      let bytes ← line.assembled addresses origin offset
      let rest ←
        assembleFrom addresses origin (offset + line.size offset) lines
      return bytes ++ rest

/-- The bytes of a listing that is loaded at `origin`. -/
def assemble [DecidableEq Label] (origin : Word)
    (lines : List (Line Label)) : Option (List UInt8) :=
  assembleFrom (addressOf origin 0 lines) origin 0 lines

/-! ## What is assembled -/

theorem Instruction.size_resolve {addresses : Label → Option Word}
    {address : Word} {instruction : Instruction (Symbol Label) (Symbol Label)}
    {resolved : Instruction Word Word}
    (resolves : instruction.resolve addresses address = some resolved) :
    resolved.size = instruction.size := by
  cases instruction with
  | movWord register value =>
      obtain ⟨_, _, isResolved⟩ := Option.map_eq_some_iff.mp resolves
      rw [← isResolved]
      rfl
  | je target =>
      obtain ⟨_, _, isResolved⟩ := Option.map_eq_some_iff.mp resolves
      rw [← isResolved]
      rfl
  | jmp target =>
      obtain ⟨_, _, isResolved⟩ := Option.map_eq_some_iff.mp resolves
      rw [← isResolved]
      rfl
  | call target =>
      obtain ⟨_, _, isResolved⟩ := Option.map_eq_some_iff.mp resolves
      rw [← isResolved]
      rfl
  | _ =>
      cases resolves
      rfl

variable {addresses : Label → Option Word} {origin : Word}

theorem Line.length_assembled {line : Line Label} {offset : Nat}
    {bytes : List UInt8}
    (assembles : line.assembled addresses origin offset = some bytes) :
    bytes.length = line.size offset := by
  cases line with
  | code instruction =>
      obtain ⟨resolved, resolves, encodes⟩ :=
        Option.bind_eq_some_iff.mp assembles
      rw [Instruction.length_encoding encodes,
        Instruction.size_resolve resolves]
      rfl
  | fillUpTo size =>
      rw [assembled, Option.ite_none_right_eq_some] at assembles
      obtain ⟨_, isBytes⟩ := assembles
      cases isBytes
      exact List.length_replicate
  | _ =>
      cases assembles
      rfl

theorem assembleFrom_cons_eq_some_iff {offset : Nat} {line : Line Label}
    {lines : List (Line Label)} {image : List UInt8} :
    assembleFrom addresses origin offset (line :: lines) = some image ↔
      ∃ bytes rest,
        line.assembled addresses origin offset = some bytes ∧
          assembleFrom addresses origin (offset + line.size offset) lines =
            some rest ∧ image = bytes ++ rest := by
  rw [assembleFrom]
  simp only [Option.bind_eq_bind, Option.bind_eq_some_iff,
    Option.pure_def, Option.some.injEq]
  constructor
  · intro ⟨bytes, assembles, rest, continues, isImage⟩
    exact ⟨bytes, rest, assembles, continues, isImage.symm⟩
  · intro ⟨bytes, rest, assembles, continues, isImage⟩
    exact ⟨bytes, assembles, rest, continues, isImage.symm⟩

/-- Lines in front of others are assembled in front of them. -/
theorem assembleFrom_append {front behind : List (Line Label)}
    {offset : Nat} {image : List UInt8}
    (assembles :
      assembleFrom addresses origin offset (front ++ behind) = some image) :
    ∃ bytes rest, offset + bytes.length = endOf offset front ∧
      assembleFrom addresses origin (endOf offset front) behind = some rest ∧
      image = bytes ++ rest := by
  induction front generalizing offset image with
  | nil =>
      exact ⟨[], image, rfl, assembles, rfl⟩
  | cons line front inductionHypothesis =>
      rw [List.cons_append, assembleFrom_cons_eq_some_iff] at assembles
      obtain ⟨first, rest, isFirst, continues, isImage⟩ := assembles
      obtain ⟨bytes, behindBytes, length, isBehind, isRest⟩ :=
        inductionHypothesis continues
      refine ⟨first ++ bytes, behindBytes, ?_, isBehind, ?_⟩
      · rw [List.length_append, Line.length_assembled isFirst,
          ← Nat.add_assoc, length]
        rfl
      · rw [isImage, isRest, List.append_assoc]

/-- A line of a listing is assembled at its place in the image. -/
theorem assembled_of_assemble [DecidableEq Label]
    {front behind : List (Line Label)} {line : Line Label}
    {image : List UInt8}
    (assembles : assemble origin (front ++ line :: behind) = some image) :
    ∃ bytes rest,
      line.assembled (addressOf origin 0 (front ++ line :: behind)) origin
          (endOf 0 front) = some bytes ∧
        image.drop (endOf 0 front) = bytes ++ rest := by
  obtain ⟨earlier, later, length, continues, isImage⟩ :=
    assembleFrom_append assembles
  rw [assembleFrom_cons_eq_some_iff] at continues
  obtain ⟨bytes, rest, isBytes, _, isLater⟩ := continues
  refine ⟨bytes, rest, isBytes, ?_⟩
  rw [Nat.zero_add] at length
  rw [isImage, isLater, ← length, List.drop_left]

/-- An instruction stands in the image with its symbols resolved. -/
theorem encoded_of_assemble [DecidableEq Label]
    {front behind : List (Line Label)}
    {instruction : Instruction (Symbol Label) (Symbol Label)}
    {resolved : Instruction Word Word} {image : List UInt8}
    (assembles : assemble origin (front ++ .code instruction :: behind) =
      some image)
    (resolves : instruction.resolve
        (addressOf origin 0 (front ++ .code instruction :: behind))
        (origin + BitVec.ofNat 16 (endOf 0 front)) = some resolved) :
    ∃ bytes rest, resolved.encoding = some bytes ∧
      image.drop (endOf 0 front) = bytes ++ rest := by
  obtain ⟨bytes, rest, isBytes, isDrop⟩ := assembled_of_assemble assembles
  obtain ⟨found, isFound, encodes⟩ := Option.bind_eq_some_iff.mp isBytes
  cases resolves.symm.trans isFound
  exact ⟨bytes, rest, encodes, isDrop⟩

theorem length_of_assemble [DecidableEq Label] {lines : List (Line Label)}
    {image : List UInt8} (assembles : assemble origin lines = some image) :
    image.length = endOf 0 lines := by
  rw [assemble, ← List.append_nil lines] at assembles
  obtain ⟨bytes, rest, length, continues, isImage⟩ :=
    assembleFrom_append assembles
  cases continues
  rw [isImage, List.append_nil, ← Nat.zero_add bytes.length, length]

end

end Esp32Source.X86
