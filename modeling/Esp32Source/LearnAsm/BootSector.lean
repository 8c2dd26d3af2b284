import Esp32Source.Memory.CString
import Esp32Source.X86.Assembler
import Esp32Source.X86.Processor

/-!
# The boot sector

`boot.asm` is a boot sector that prints a text and then jumps to itself.
`print` loads one character after the other up to the NUL, and `print_char`
hands each to the teletype service of the BIOS.

The sector is assembled for the address `0x7C00`, but its jumps are relative:
it runs under every segment that names this address.  The text is read through
`ds`, which the sector does not set, and in the direction that the BIOS left.
What the service and the interrupts leave alone is the sector, and the stack
from its pointer on.
-/

namespace Esp32Source.LearnAsm

open Memory Machine X86

/-! ## The listing -/

inductive BootLabel where
  | start
  | print
  /-- `.loop` -/
  | loop
  /-- `.done` -/
  | done
  | printChar
  | message
  deriving DecidableEq, Repr

/-- The lines of `boot.asm` in front of `message`. -/
def bootCode : List (Line BootLabel) :=
  [.label .start,
    .code (.movWord .si (.label .message)),
    .code (.call (.label .print)),
    .code (.jmp .here),
    .label .print,
    .code (.movWord .bx (.number 0)),
    .label .loop,
    .code .lodsb,
    .code (.cmpAl 0),
    .code (.je (.label .done)),
    .code (.call (.label .printChar)),
    .code (.jmp (.label .loop)),
    .label .done,
    .code .ret,
    .label .printChar,
    .code (.movByte .ah 0x0E),
    .code (.int 0x10),
    .code .ret]

def bootSector (message : List UInt8) : List (Line BootLabel) :=
  bootCode ++
    [.label .message, .db (message ++ [0]), .fillUpTo 510, .dw 0xAA55]

/-- `message` -/
def helloMessage : List UInt8 :=
  ascii "Hello World khi that chuyen gi dang xay ra o day vay"

/-- The code of `boot.bin`. -/
example :
    (assemble 0x7C00 (bootSector helloMessage)).map (List.take 27) =
      some [0xBE, 0x1B, 0x7C, 0xE8, 0x02, 0x00, 0xEB, 0xFE, 0xBB, 0x00, 0x00,
        0xAC, 0x3C, 0x00, 0x74, 0x05, 0xE8, 0x03, 0x00, 0xEB, 0xF6, 0xC3,
        0xB4, 0x0E, 0xCD, 0x10, 0xC3] := by
  decide +kernel

/-- `ORG` -/
abbrev bootAddress : Nat := 0x7C00

/-- The memory holds the sector. -/
def Loaded (message : List UInt8) (ram : Nat → UInt8) : Prop :=
  ∃ image, assemble 0x7C00 (bootSector message) =
      some image ∧
    Holds ram bootAddress image

/-- The address is one of the sector. -/
def InSector (address : Nat) : Prop :=
  bootAddress ≤ address ∧ address < bootAddress + 512

/-- The state in which the sector is entered. -/
structure Boots (message : List UInt8) (boot : Cpu) : Prop where
  loaded : Loaded message boot.ram
  entered : boot.cs.toNat * 16 + boot.ip.toNat = bootAddress
  ds : boot.ds = 0
  up : boot.isDown = false
  /-- The four bytes below the stack pointer lie together. -/
  room : (boot.registers .sp - 4).toNat ≤ 2 ^ 16 - 4
  /-- They are not bytes of the sector. -/
  apart : ∀ below, 1 ≤ below → below ≤ 4 →
    ¬ InSector (physical boot.ss (boot.registers .sp - BitVec.ofNat 16 below))

/-- The memory has kept the sector, and the stack from its pointer on. -/
structure Kept (cpu : Cpu) (ram : Nat → UInt8) : Prop where
  sector : ∀ address, InSector address → ram address = cpu.ram address
  stack : ∀ offset : Word, (cpu.registers .sp).toNat ≤ offset.toNat →
    ram (physical cpu.ss offset) = cpu.ram (physical cpu.ss offset)

/-- A service or an interrupt keeps the program. -/
def Spares (cpu : Cpu) : Turn → Prop
  | .instruction service =>
      ∀ vector, Instruction.ofBytes cpu.fetched = some (.int vector) →
        Kept cpu service.ram
  | .interrupt ram => Kept cpu ram

/-- The same along a run. -/
def SparesProgram (boot : Cpu) (front : List Turn) (turn : Turn) : Prop :=
  ∀ computer, computerAfter boot front = .ok computer →
    Spares computer.cpu turn

/-- What the teletype service is asked for: a character, on the first page. -/
def teletype (char : UInt8) : ServiceCall where
  vector := 0x10
  ax := wordOf char 0x0E
  bx := 0

/-! ## Places -/

/-- The instructions of the loop over the text. -/
inductive Stage where
  | loads
  | compares
  | branches
  | calls
  | setsAh
  | prints
  | returns
  | jumps
  deriving DecidableEq, Repr

/-- The instruction that is next, with the number of characters in front of
the one at hand. -/
inductive Place where
  | start
  | callsPrint
  | clearsBx
  | atStage (stage : Stage) (read : Nat)
  | returns
  | halts
  deriving DecidableEq, Repr

def Stage.number : Stage → Nat
  | .loads => 0
  | .compares => 1
  | .branches => 2
  | .calls => 3
  | .setsAh => 4
  | .prints => 5
  | .returns => 6
  | .jumps => 7

def Stage.line : Stage → Nat
  | .loads => 7
  | .compares => 8
  | .branches => 9
  | .calls => 10
  | .setsAh => 15
  | .prints => 16
  | .returns => 17
  | .jumps => 11

/-- The line of the listing. -/
def Place.line : Place → Nat
  | .start => 1
  | .callsPrint => 2
  | .clearsBx => 5
  | .atStage stage _ => stage.line
  | .returns => 13
  | .halts => 3

def offsetOf (line : Nat) : Nat :=
  endOf 0 (bootCode.take line)

/-- The return addresses on the stack, from the beginning of the sector. -/
def Stage.stack : Stage → List Nat
  | .setsAh => [19, 6]
  | .prints => [19, 6]
  | .returns => [19, 6]
  | _ => [6]

def Place.stack : Place → List Nat
  | .start => []
  | .callsPrint => []
  | .clearsBx => [6]
  | .atStage stage _ => stage.stack
  | .returns => [6]
  | .halts => []

/-- The place behind an instruction.  The text behind its end is the NUL. -/
def Place.next (message : List UInt8) : Place → Place
  | .start => .callsPrint
  | .callsPrint => .clearsBx
  | .clearsBx => .atStage .loads 0
  | .atStage .loads read => .atStage .compares read
  | .atStage .compares read => .atStage .branches read
  | .atStage .branches read =>
      if message.getD read 0 = 0 then .returns else .atStage .calls read
  | .atStage .calls read => .atStage .setsAh read
  | .atStage .setsAh read => .atStage .prints read
  | .atStage .prints read => .atStage .returns read
  | .atStage .returns read => .atStage .jumps read
  | .atStage .jumps read => .atStage .loads (read + 1)
  | .returns => .halts
  | .halts => .halts

/-- The number of characters that have been printed. -/
def Place.printed (message : List UInt8) : Place → Nat
  | .start => 0
  | .callsPrint => 0
  | .clearsBx => 0
  | .atStage stage read => if stage.number ≤ 5 then read else read + 1
  | .returns => message.length
  | .halts => message.length

/-- The place behind so many instructions. -/
def Place.Clock (message : List UInt8) (count : Nat) : Place → Prop
  | .start => count = 0
  | .callsPrint => count = 1
  | .clearsBx => count = 2
  | .atStage stage read =>
      count = 8 * read + stage.number + 3 ∧ read ≤ message.length ∧
        (3 ≤ stage.number → read < message.length)
  | .returns => count = 8 * message.length + 6
  | .halts => 8 * message.length + 7 ≤ count

/-! ## The run of the places -/

theorem getD_eq_zero_iff {message : List UInt8} (free : NulFree message)
    (index : Nat) : message.getD index 0 = 0 ↔ message.length ≤ index := by
  by_cases inside : index < message.length
  · have isChar : message.getD index 0 = message[index] := by
      rw [List.getD_eq_getElem?_getD, List.getElem?_eq_getElem inside,
        Option.getD_some]
    rw [isChar]
    exact iff_of_false (free _ (List.getElem_mem inside))
      (Nat.not_le_of_lt inside)
  · refine iff_of_true ?_ (Nat.le_of_not_lt inside)
    rw [List.getD_eq_getElem?_getD,
      List.getElem?_eq_none (Nat.le_of_not_lt inside), Option.getD_none]

/-- Every instruction takes one tick, and every turn of the loop eight. -/
theorem Place.Clock.next {message : List UInt8} (free : NulFree message)
    {count : Nat} {place : Place} (clock : place.Clock message count) :
    (place.next message).Clock message (count + 1) := by
  cases place with
  | atStage stage read =>
      obtain ⟨isCount, atMost, below⟩ := clock
      have isEnd := getD_eq_zero_iff free read
      cases stage with
      | branches =>
          rw [Place.next]
          by_cases ends : message.getD read 0 = 0
          · have whole : message.length ≤ read := isEnd.mp ends
            rw [if_pos ends, Clock, isCount, Stage.number]
            omega
          · have inside : ¬ message.length ≤ read := fun le =>
              ends (isEnd.mpr le)
            rw [if_neg ends, Clock, isCount, Stage.number, Stage.number]
            omega
      | jumps =>
          have inside := below (by decide)
          rw [Place.next, Clock, isCount, Stage.number, Stage.number]
          omega
      | loads | compares =>
          rw [Place.next, Clock, isCount, Stage.number, Stage.number]
          omega
      | calls | setsAh | prints | returns =>
          have inside := below (by decide)
          rw [Place.next, Clock, isCount, Stage.number, Stage.number]
          omega
  | clearsBx =>
      rw [Clock] at clock
      rw [Place.next, Clock, clock, Stage.number]
      omega
  | start | callsPrint | returns | halts =>
      rw [Clock] at clock
      rw [Place.next, Clock]
      omega

theorem Place.Clock.printed {message : List UInt8} {count : Nat}
    {place : Place} (clock : place.Clock message count) :
    message.take (place.printed message) =
      message.take ((count - 1) / 8) := by
  cases place with
  | atStage stage read =>
      obtain ⟨isCount, _, _⟩ := clock
      have small : stage.number ≤ 7 := by
        cases stage <;> decide
      have same : (if stage.number ≤ 5 then read else read + 1) =
          (count - 1) / 8 := by
        split <;> omega
      rw [Place.printed, same]
  | halts =>
      rw [Clock] at clock
      rw [Place.printed, List.take_length,
        List.take_of_length_le (by omega)]
  | returns =>
      rw [Clock] at clock
      have same : message.length = (count - 1) / 8 := by
        omega
      exact congrArg (message.take ·) same
  | start | callsPrint | clearsBx =>
      rw [Clock] at clock
      rw [Place.printed, clock]

/-! ## Frames -/

/-- What all instructions share: the segments, the sector and the stack, with
the return addresses that it holds. -/
structure Frame (message : List UInt8) (boot : Cpu) (stack : List Nat)
    (cpu : Cpu) : Prop where
  cs : cpu.cs = boot.cs
  ds : cpu.ds = 0
  ss : cpu.ss = boot.ss
  up : cpu.isDown = false
  loaded : Loaded message cpu.ram
  sp : cpu.registers .sp =
    boot.registers .sp - BitVec.ofNat 16 (2 * stack.length)
  stacked : Stacked cpu.ram cpu.ss (cpu.registers .sp)
    (stack.map fun offset => boot.ip + BitVec.ofNat 16 offset)

theorem endOf_bootSector (message : List UInt8) :
    endOf 0 (bootSector message) =
      27 + (message ++ [0]).length +
        (510 - (27 + (message ++ [0]).length)) + 2 :=
  rfl

/-- The text of a sector that can be assembled leaves room for its end. -/
theorem length_le_of_assemble {message image : List UInt8}
    (assembles :
      assemble 0x7C00 (bootSector message) =
        some image) :
    27 + (message ++ [0]).length ≤ 510 := by
  have shape : bootSector message =
      (bootCode ++ [.label .message, .db (message ++ [0])]) ++
        .fillUpTo 510 :: [.dw 0xAA55] := by
    rw [List.append_assoc]
    rfl
  rw [shape] at assembles
  obtain ⟨bytes, _, isBytes, _⟩ := assembled_of_assemble assembles
  rw [Line.assembled, Option.ite_none_right_eq_some] at isBytes
  exact isBytes.1

/-- The characters of the text stand behind the code, and the NUL behind
them. -/
theorem Loaded.char {message : List UInt8} {ram : Nat → UInt8}
    (loaded : Loaded message ram) {read : Nat}
    (inside : read ≤ message.length) :
    ram (bootAddress + (27 + read)) = message.getD read 0 := by
  obtain ⟨image, assembles, holds⟩ := loaded
  have shape : bootSector message =
      (bootCode ++ [.label .message]) ++
        .db (message ++ [0]) :: [.fillUpTo 510, .dw 0xAA55] := by
    rw [List.append_assoc]
    rfl
  rw [shape] at assembles
  obtain ⟨bytes, rest, isBytes, isDrop⟩ := assembled_of_assemble assembles
  cases isBytes
  apply holds
  have isOffset :
      endOf 0 (bootCode ++ [Line.label BootLabel.message]) = 27 := rfl
  rw [isOffset] at isDrop
  rw [← List.getElem?_drop, isDrop, List.append_assoc]
  rcases Nat.eq_or_lt_of_le inside with isEnd | isChar
  · rw [isEnd, List.getElem?_append_right (Nat.le_refl _), Nat.sub_self,
      List.getD_eq_getElem?_getD, List.getElem?_eq_none (Nat.le_refl _)]
    rfl
  · rw [List.getElem?_append_left isChar, List.getD_eq_getElem?_getD,
      List.getElem?_eq_getElem isChar, Option.getD_some]

theorem Loaded.of_same {message : List UInt8} {ram next : Nat → UInt8}
    (loaded : Loaded message ram)
    (same : ∀ address, InSector address → next address = ram address) :
    Loaded message next := by
  obtain ⟨image, assembles, holds⟩ := loaded
  refine ⟨image, assembles, holds.of_same ?_⟩
  intro index inside
  apply same
  have length : image.length ≤ 512 := by
    have fits := length_le_of_assemble assembles
    rw [length_of_assemble assembles, endOf_bootSector]
    omega
  exact ⟨Nat.le_add_right _ _, by omega⟩

section Frames

variable {message : List UInt8} {boot cpu next : Cpu} {stack : List Nat}

theorem Frame.of_same (frame : Frame message boot stack cpu)
    (cs : next.cs = cpu.cs) (ds : next.ds = cpu.ds) (ss : next.ss = cpu.ss)
    (up : next.isDown = cpu.isDown) (ram : next.ram = cpu.ram)
    (sp : next.registers .sp = cpu.registers .sp) :
    Frame message boot stack next where
  cs := cs.trans frame.cs
  ds := ds.trans frame.ds
  ss := ss.trans frame.ss
  up := up.trans frame.up
  loaded := ram ▸ frame.loaded
  sp := sp.trans frame.sp
  stacked := by
    rw [ram, ss, sp]
    exact frame.stacked

theorem Frame.jump (frame : Frame message boot stack cpu)
    (displacement : Word) :
    Frame message boot stack (cpu.jump displacement) :=
  frame.of_same rfl rfl rfl rfl rfl rfl

/-- A call from outside or from `print` finds room on the stack. -/
theorem Frame.push (boots : Boots message boot)
    (frame : Frame message boot stack cpu) (short : stack.length ≤ 1)
    (offset : Nat) :
    Frame message boot (offset :: stack)
      (cpu.push (boot.ip + BitVec.ofNat 16 offset)) where
  cs := frame.cs
  ds := frame.ds
  ss := frame.ss
  up := frame.up
  loaded := by
    apply frame.loaded.of_same
    intro address inSector
    have low : cpu.registers .sp - 2 =
        boot.registers .sp - BitVec.ofNat 16 (2 * stack.length + 2) := by
      rw [frame.sp]
      bv_omega
    have high : cpu.registers .sp - 2 + 1 =
        boot.registers .sp - BitVec.ofNat 16 (2 * stack.length + 1) := by
      rw [frame.sp]
      bv_omega
    apply storeWord_of_ne
    · intro same
      rw [same, frame.ss, low] at inSector
      exact boots.apart _ (by omega) (by omega) inSector
    · intro same
      rw [same, frame.ss, high] at inSector
      exact boots.apart _ (by omega) (by omega) inSector
  sp := by
    rw [Cpu.push_sp, frame.sp, List.length_cons]
    bv_omega
  stacked := by
    rw [Cpu.push_sp]
    refine frame.stacked.push ?_ _
    rw [List.length_map]
    omega

theorem Frame.pop {offset : Nat}
    (frame : Frame message boot (offset :: stack) cpu) :
    loadWord cpu.ram cpu.ss (cpu.registers .sp) =
        boot.ip + BitVec.ofNat 16 offset ∧
      Frame message boot stack (cpu.set .sp (cpu.registers .sp + 2)) := by
  refine ⟨frame.stacked.1, ?_⟩
  exact
    { cs := frame.cs
      ds := frame.ds
      ss := frame.ss
      up := frame.up
      loaded := frame.loaded
      sp := by
        rw [Cpu.set_self, frame.sp, List.length_cons]
        bv_omega
      stacked := by
        rw [Cpu.set_self]
        exact frame.stacked.2 }

theorem Frame.keep (boots : Boots message boot)
    (frame : Frame message boot stack cpu) (short : stack.length ≤ 2)
    {ram : Nat → UInt8} (kept : Kept cpu ram) :
    Frame message boot stack { cpu with ram } where
  cs := frame.cs
  ds := frame.ds
  ss := frame.ss
  up := frame.up
  loaded := frame.loaded.of_same kept.sector
  sp := frame.sp
  stacked := by
    refine frame.stacked.of_same ?_
    intro index inside
    apply kept.stack
    rw [List.length_map] at inside
    have room := boots.room
    have four : (4 : Word).toNat = 4 := rfl
    rw [BitVec.toNat_sub, four] at room
    rw [frame.sp, BitVec.toNat_add, BitVec.toNat_sub, BitVec.toNat_ofNat,
      BitVec.toNat_ofNat]
    omega

end Frames

end Esp32Source.LearnAsm
