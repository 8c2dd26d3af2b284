import Esp32Source.Machine.History
import Esp32Source.X86.Instruction
import Mathlib.Logic.Function.Basic

/-!
# A processor in real mode

The state of the processor and what an instruction does to it.  A segment and
an offset name an address of twenty bits.

What an interrupt runs is not part of a program.  `int` asks for a service,
which is recorded; the answer gives the registers `ax` and `bp` and the memory
behind it, and leaves the other registers and the flags as they are.  Between
two instructions an interrupt of the hardware may come, which changes the
memory only.  Which memory they leave alone is a matter of the run.
-/

namespace Esp32Source.X86

open Machine

/-! ## Memory -/

/-- The address of a byte. -/
def physical (segment offset : Word) : Nat :=
  (segment.toNat * 16 + offset.toNat) % 2 ^ 20

theorem physical_inj {segment one other : Word} :
    physical segment one = physical segment other ↔ one = other := by
  constructor
  · intro same
    have oneSmall := one.isLt
    have otherSmall := other.isLt
    apply BitVec.eq_of_toNat_eq
    rw [physical, physical] at same
    omega
  · intro same
    rw [same]

/-- An address that needs no more than twenty bits. -/
theorem physical_of_fits {segment offset : Word} {address count : Nat}
    (entered : segment.toNat * 16 + offset.toNat = address)
    (offsetFits : offset.toNat + count < 2 ^ 16)
    (fits : address + count < 2 ^ 20) :
    physical segment (offset + BitVec.ofNat 16 count) = address + count := by
  rw [physical, BitVec.toNat_add, BitVec.toNat_ofNat]
  omega

/-- The bytes stand in memory from the address on. -/
def Holds (ram : Nat → UInt8) (address : Nat) (bytes : List UInt8) : Prop :=
  ∀ index byte, bytes[index]? = some byte → ram (address + index) = byte

theorem Holds.of_same {ram next : Nat → UInt8} {address : Nat}
    {bytes : List UInt8} (holds : Holds ram address bytes)
    (same : ∀ index, index < bytes.length →
      next (address + index) = ram (address + index)) :
    Holds next address bytes := by
  intro index byte isByte
  rw [same index (List.getElem?_eq_some_iff.mp isByte).1]
  exact holds index byte isByte

def loadWord (ram : Nat → UInt8) (segment offset : Word) : Word :=
  wordOf (ram (physical segment offset)) (ram (physical segment (offset + 1)))

def storeWord (ram : Nat → UInt8) (segment offset word : Word) :
    Nat → UInt8 :=
  Function.update
    (Function.update ram (physical segment offset) (lowByte word))
    (physical segment (offset + 1)) (highByte word)

theorem ne_add_one (offset : Word) : offset ≠ offset + 1 := by
  intro same
  have numbers := congrArg BitVec.toNat same
  rw [BitVec.toNat_add] at numbers
  have small := offset.isLt
  have one : (1 : Word).toNat = 1 := rfl
  omega

@[simp]
theorem loadWord_storeWord (ram : Nat → UInt8) (segment offset word : Word) :
    loadWord (storeWord ram segment offset word) segment offset = word := by
  have apart : physical segment offset ≠ physical segment (offset + 1) :=
    fun same => ne_add_one offset (physical_inj.mp same)
  rw [loadWord, storeWord, Function.update_self,
    Function.update_of_ne apart, Function.update_self,
    wordOf_lowByte_highByte]

theorem storeWord_of_ne {ram : Nat → UInt8} {segment offset : Word}
    {address : Nat} (low : address ≠ physical segment offset)
    (high : address ≠ physical segment (offset + 1)) (word : Word) :
    storeWord ram segment offset word address = ram address := by
  rw [storeWord, Function.update_of_ne high, Function.update_of_ne low]

/-! ## The stack -/

/-- The words on the stack, the last one pushed first. -/
def Stacked (ram : Nat → UInt8) (segment : Word) : Word → List Word → Prop
  | _, [] => True
  | sp, word :: words =>
      loadWord ram segment sp = word ∧ Stacked ram segment (sp + 2) words

theorem Stacked.of_same {ram next : Nat → UInt8} {segment : Word}
    {words : List Word} :
    ∀ {sp : Word}, Stacked ram segment sp words →
      (∀ index, index < 2 * words.length →
        next (physical segment (sp + BitVec.ofNat 16 index)) =
          ram (physical segment (sp + BitVec.ofNat 16 index))) →
      Stacked next segment sp words := by
  induction words with
  | nil =>
      intro sp _ _
      trivial
  | cons word words inductionHypothesis =>
      intro sp stacked same
      have low := same 0 (by rw [List.length_cons]; omega)
      have high := same 1 (by rw [List.length_cons]; omega)
      rw [BitVec.add_zero] at low
      refine ⟨?_, inductionHypothesis stacked.2 ?_⟩
      · rw [← stacked.1, loadWord, loadWord, low]
        exact congrArg _ high
      · intro index inside
        have shifted := same (index + 2) (by rw [List.length_cons]; omega)
        rw [Nat.add_comm, BitVec.ofNat_add, ← BitVec.add_assoc] at shifted
        exact shifted

/-- A word is pushed in front of the others, as long as the stack does not
fill its segment. -/
theorem Stacked.push {ram : Nat → UInt8} {segment sp : Word}
    {words : List Word} (stacked : Stacked ram segment sp words)
    (room : 2 * words.length + 2 ≤ 2 ^ 16) (word : Word) :
    Stacked (storeWord ram segment (sp - 2) word) segment (sp - 2)
      (word :: words) := by
  refine ⟨loadWord_storeWord _ _ _ _, ?_⟩
  rw [BitVec.sub_add_cancel]
  refine stacked.of_same ?_
  intro index inside
  have spSmall := sp.isLt
  have two : (2 : Word).toNat = 2 := rfl
  have one : (1 : Word).toNat = 1 := rfl
  apply storeWord_of_ne
  · intro same
    have numbers := congrArg BitVec.toNat (physical_inj.mp same)
    rw [BitVec.toNat_add, BitVec.toNat_ofNat, BitVec.toNat_sub, two]
      at numbers
    omega
  · intro same
    have numbers := congrArg BitVec.toNat (physical_inj.mp same)
    rw [BitVec.toNat_add, BitVec.toNat_ofNat, BitVec.toNat_add,
      BitVec.toNat_sub, two, one] at numbers
    omega

/-! ## The processor -/

structure Cpu where
  registers : Register → Word
  ip : Word
  cs : Word
  ds : Word
  ss : Word
  /-- the zero flag -/
  isZero : Bool
  /-- the direction flag -/
  isDown : Bool
  ram : Nat → UInt8

def Cpu.set (cpu : Cpu) (register : Register) (value : Word) : Cpu :=
  { cpu with registers := Function.update cpu.registers register value }

/-- The register that a byte register is a half of. -/
def ByteRegister.whole : ByteRegister → Register
  | .al => .ax
  | .cl => .cx
  | .dl => .dx
  | .bl => .bx
  | .ah => .ax
  | .ch => .cx
  | .dh => .dx
  | .bh => .bx

def ByteRegister.isHigh : ByteRegister → Bool
  | .al => false
  | .cl => false
  | .dl => false
  | .bl => false
  | .ah => true
  | .ch => true
  | .dh => true
  | .bh => true

def Cpu.setByte (cpu : Cpu) (register : ByteRegister) (value : UInt8) : Cpu :=
  let word := cpu.registers register.whole
  cpu.set register.whole
    (if register.isHigh then wordOf (lowByte word) value
    else wordOf value (highByte word))

def Cpu.jump (cpu : Cpu) (displacement : Word) : Cpu :=
  { cpu with ip := cpu.ip + displacement }

def Cpu.push (cpu : Cpu) (word : Word) : Cpu :=
  let sp := cpu.registers .sp - 2
  { cpu.set .sp sp with ram := storeWord cpu.ram cpu.ss sp word }

/-- What a service leaves behind. -/
structure Service where
  ax : Word
  bp : Word
  ram : Nat → UInt8

/-- What a service is asked for. -/
structure ServiceCall where
  vector : UInt8
  ax : Word
  bx : Word
  deriving DecidableEq, Repr

/-- An instruction behind which `ip` stands already. -/
def Cpu.execute (cpu : Cpu) (service : Service) :
    Instruction Word Word → Cpu × List ServiceCall
  | .movWord register value => (cpu.set register value, [])
  | .movByte register value => (cpu.setByte register value, [])
  | .lodsb =>
      let si := cpu.registers .si
      ((cpu.setByte .al (cpu.ram (physical cpu.ds si))).set .si
        (if cpu.isDown then si - 1 else si + 1), [])
  | .cmpAl value =>
      ({ cpu with isZero := lowByte (cpu.registers .ax) = value }, [])
  | .je displacement =>
      (if cpu.isZero then cpu.jump displacement else cpu, [])
  | .jmp displacement => (cpu.jump displacement, [])
  | .call displacement => ((cpu.push cpu.ip).jump displacement, [])
  | .ret =>
      let sp := cpu.registers .sp
      ({ cpu.set .sp (sp + 2) with ip := loadWord cpu.ram cpu.ss sp }, [])
  | .int vector =>
      ({ (cpu.set .ax service.ax).set .bp service.bp with
          ram := service.ram },
        [⟨vector, cpu.registers .ax, cpu.registers .bx⟩])

/-- The bytes at `ip`, as many as the longest instruction has. -/
def Cpu.fetched (cpu : Cpu) : List UInt8 :=
  (List.range 3).map fun index =>
    cpu.ram (physical cpu.cs (cpu.ip + BitVec.ofNat 16 index))

inductive Trap where
  | undefinedOpcode
  deriving DecidableEq, Repr

inductive Turn where
  | instruction (service : Service)
  | interrupt (ram : Nat → UInt8)

def Cpu.step (cpu : Cpu) :
    Turn → Except Trap (Cpu × List ServiceCall)
  | .instruction service =>
      match Instruction.ofBytes cpu.fetched with
      | none => .error .undefinedOpcode
      | some instruction =>
          .ok ((cpu.jump (BitVec.ofNat 16 instruction.size)).execute service
            instruction)
  | .interrupt ram => .ok ({ cpu with ram }, [])

/-- The processor and the services that it has asked for. -/
structure Computer where
  cpu : Cpu
  asked : List ServiceCall

def Computer.step (computer : Computer) (turn : Turn) :
    Except Trap (Computer × Unit) :=
  (computer.cpu.step turn).map fun (cpu, calls) =>
    ({ cpu, asked := computer.asked ++ calls }, ())

def computerAfter (cpu : Cpu) (history : List Turn) : Except Trap Computer :=
  after Computer.step { cpu, asked := [] } history

/-- The instructions that a history executes. -/
def instructions (history : List Turn) : Nat :=
  history.countP fun
    | .instruction _ => true
    | .interrupt _ => false

/-! ## The registers -/

@[simp]
theorem Cpu.set_self (cpu : Cpu) (register : Register) (value : Word) :
    (cpu.set register value).registers register = value := by
  rw [set]
  exact Function.update_self register value cpu.registers

@[simp]
theorem Cpu.set_of_ne {register other : Register}
    (different : other ≠ register) (cpu : Cpu) (value : Word) :
    (cpu.set register value).registers other = cpu.registers other := by
  rw [set]
  exact Function.update_of_ne different value cpu.registers

@[simp]
theorem Cpu.push_sp (cpu : Cpu) (word : Word) :
    (cpu.push word).registers .sp = cpu.registers .sp - 2 :=
  cpu.set_self .sp _

@[simp]
theorem Cpu.push_of_ne {other : Register} (different : other ≠ .sp)
    (cpu : Cpu) (word : Word) :
    (cpu.push word).registers other = cpu.registers other :=
  Cpu.set_of_ne different cpu _

@[simp]
theorem Cpu.setByte_of_ne {register : ByteRegister} {other : Register}
    (different : other ≠ register.whole) (cpu : Cpu) (value : UInt8) :
    (cpu.setByte register value).registers other = cpu.registers other :=
  Cpu.set_of_ne different cpu _

/-- A low half is stored beside its high half. -/
theorem Cpu.setByte_low {register : ByteRegister}
    (isLow : register.isHigh = false) (cpu : Cpu) (value : UInt8) :
    (cpu.setByte register value).registers register.whole =
      wordOf value (highByte (cpu.registers register.whole)) := by
  rw [setByte, isLow, set_self, if_neg Bool.false_ne_true]

theorem Cpu.setByte_high {register : ByteRegister}
    (isHigh : register.isHigh = true) (cpu : Cpu) (value : UInt8) :
    (cpu.setByte register value).registers register.whole =
      wordOf (lowByte (cpu.registers register.whole)) value := by
  rw [setByte, isHigh, set_self, if_pos rfl]

/-- In the upward direction a character is loaded and passed. -/
theorem Cpu.lodsb_si {cpu : Cpu} (up : cpu.isDown = false)
    (service : Service) :
    (cpu.execute service .lodsb).1.registers .si =
      cpu.registers .si + 1 := by
  rw [execute]
  dsimp only
  rw [set_self, up, if_neg Bool.false_ne_true]

theorem Cpu.lodsb_al (cpu : Cpu) (service : Service) :
    lowByte ((cpu.execute service .lodsb).1.registers .ax) =
      cpu.ram (physical cpu.ds (cpu.registers .si)) := by
  have isAx := @Cpu.setByte_low .al rfl cpu
    (cpu.ram (physical cpu.ds (cpu.registers .si)))
  rw [execute]
  dsimp only
  rw [set_of_ne (by decide)]
  exact (congrArg lowByte isAx).trans (lowByte_wordOf _ _)

theorem Cpu.lodsb_of_ne {other : Register} (notSi : other ≠ .si)
    (notAx : other ≠ .ax) (cpu : Cpu) (service : Service) :
    (cpu.execute service .lodsb).1.registers other = cpu.registers other :=
  (set_of_ne notSi _ _).trans (setByte_of_ne notAx _ _)

/-! ## The next instruction -/

/-- An instruction that stands at `ip` in memory is the next one. -/
theorem Cpu.fetches {cpu : Cpu} {address offset : Nat}
    {instruction : Instruction Word Word} {bytes rest image : List UInt8}
    (holds : Holds cpu.ram address image)
    (encodes : instruction.encoding = some bytes)
    (stands : image.drop offset = bytes ++ rest)
    (linear : ∀ index, index < 3 →
      physical cpu.cs (cpu.ip + BitVec.ofNat 16 index) =
        address + (offset + index)) :
    Instruction.ofBytes cpu.fetched = some instruction := by
  have atMost : bytes.length ≤ 3 := by
    rw [Instruction.length_encoding encodes]
    exact instruction.size_le
  have front : cpu.fetched.take bytes.length = bytes := by
    apply List.ext_getElem?
    intro index
    by_cases inside : index < bytes.length
    · obtain ⟨byte, isByte⟩ : ∃ byte, bytes[index]? = some byte :=
        ⟨_, List.getElem?_eq_getElem inside⟩
      have inImage : image[offset + index]? = some byte := by
        rw [← List.getElem?_drop, stands, List.getElem?_append_left inside,
          isByte]
      rw [List.getElem?_take_of_lt inside, fetched, List.getElem?_map,
        List.getElem?_range (by omega), Option.map_some,
        linear index (by omega), isByte, holds _ _ inImage]
    · rw [List.getElem?_eq_none (by rw [List.length_take]; omega),
        List.getElem?_eq_none (by omega)]
  have whole : bytes ++ cpu.fetched.drop bytes.length = cpu.fetched := by
    calc bytes ++ cpu.fetched.drop bytes.length
      _ = cpu.fetched.take bytes.length ++
            cpu.fetched.drop bytes.length := by
          rw [front]
      _ = cpu.fetched := List.take_append_drop _ _
  have decodes := Instruction.ofBytes_encoding encodes
    (cpu.fetched.drop bytes.length)
  rw [whole] at decodes
  exact decodes

theorem Computer.step_instruction {computer : Computer}
    {instruction : Instruction Word Word}
    (fetches :
      Instruction.ofBytes computer.cpu.fetched = some instruction)
    (service : Service) {cpu : Cpu} {calls : List ServiceCall}
    (executes :
      (computer.cpu.jump (BitVec.ofNat 16 instruction.size)).execute service
        instruction = (cpu, calls)) :
    computer.step (.instruction service) =
      .ok ({ cpu, asked := computer.asked ++ calls }, ()) := by
  rw [step, Cpu.step, fetches]
  dsimp only
  rw [executes]
  rfl

end Esp32Source.X86
