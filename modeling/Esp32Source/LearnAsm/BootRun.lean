import Esp32Source.LearnAsm.BootSector

/-!
# The run of the boot sector

Every instruction of the sector leads from its place to the next one, whatever
the service does to `ax` and to the rest of the memory.  The places follow the
number of instructions, so that it also says what is printed.
-/

namespace Esp32Source.LearnAsm

open Memory Machine X86

/-! ## The instruction at a place -/

/-- The instruction of a place, with its symbols resolved. -/
def Stage.instruction : Stage → Instruction Word Word
  | .loads => .lodsb
  | .compares => .cmpAl 0
  | .branches => .je 5
  | .calls => .call 3
  | .setsAh => .movByte .ah 0x0E
  | .prints => .int 0x10
  | .returns => .ret
  | .jumps => .jmp 0xFFF6

def Place.instruction : Place → Instruction Word Word
  | .start => .movWord .si 0x7C1B
  | .callsPrint => .call 2
  | .clearsBx => .movWord .bx 0
  | .atStage stage _ => stage.instruction
  | .returns => .ret
  | .halts => .jmp 0xFFFE

/-- The line of a place is assembled to its instruction. -/
theorem Place.resolves (message : List UInt8) (place : Place) :
    ∃ instruction,
      bootCode[place.line]? = some (.code instruction) ∧
        instruction.resolve
            (addressOf 0x7C00 0 (bootSector message))
            (0x7C00 + BitVec.ofNat 16 (offsetOf place.line)) =
          some place.instruction ∧
        offsetOf place.line < 27 := by
  cases place with
  | atStage stage read =>
      rw [Place.line, Place.instruction]
      cases stage <;> dsimp only [Stage.line, Stage.instruction] <;>
        exact ⟨_, rfl, rfl, by decide⟩
  | _ =>
      exact ⟨_, rfl, rfl, by decide⟩

theorem bootSector_split (message : List UInt8) {line : Nat}
    {instruction : Instruction (Symbol BootLabel) (Symbol BootLabel)}
    (isLine : bootCode[line]? = some (.code instruction)) :
    ∃ behind,
      bootSector message =
        bootCode.take line ++ .code instruction :: behind := by
  obtain ⟨inside, isCode⟩ := List.getElem?_eq_some_iff.mp isLine
  refine ⟨bootCode.drop (line + 1) ++
    [.label .message, .db (message ++ [0]), .fillUpTo 510, .dw 0xAA55], ?_⟩
  rw [← isCode, ← List.cons_append, ← List.drop_eq_getElem_cons inside,
    ← List.append_assoc, List.take_append_drop]
  rfl

/-- What is known of the registers in the loop. -/
structure AtStage (message : List UInt8) (stage : Stage) (read : Nat)
    (cpu : Cpu) : Prop where
  si : cpu.registers .si =
    BitVec.ofNat 16
      (bootAddress + (27 + if stage = .loads then read else read + 1))
  bx : cpu.registers .bx = 0
  al : 1 ≤ stage.number → stage.number ≤ 5 →
    lowByte (cpu.registers .ax) = message.getD read 0
  isZero : stage = .branches → cpu.isZero = decide (message.getD read 0 = 0)
  ah : stage = .prints → highByte (cpu.registers .ax) = 0x0E

def Place.Data (message : List UInt8) (cpu : Cpu) : Place → Prop
  | .start => True
  | .callsPrint => cpu.registers .si = BitVec.ofNat 16 (bootAddress + 27)
  | .clearsBx => cpu.registers .si = BitVec.ofNat 16 (bootAddress + 27)
  | .atStage stage read => AtStage message stage read cpu
  | .returns => True
  | .halts => True

/-- The processor is at a place, with `ip` at an offset in the sector. -/
structure At (message : List UInt8) (boot : Cpu) (place : Place)
    (offset : Nat) (cpu : Cpu) : Prop where
  frame : Frame message boot place.stack cpu
  ip : cpu.ip = boot.ip + BitVec.ofNat 16 offset
  data : place.Data message cpu

section Steps

variable {message : List UInt8} {boot cpu : Cpu} {place : Place}

theorem At.fetches (boots : Boots message boot)
    (here : At message boot place (offsetOf place.line) cpu) :
    Instruction.ofBytes cpu.fetched = some place.instruction := by
  obtain ⟨instruction, isLine, resolves, small⟩ := place.resolves message
  obtain ⟨behind, shape⟩ := bootSector_split message isLine
  obtain ⟨image, assembles, holds⟩ := here.frame.loaded
  rw [shape] at assembles resolves
  obtain ⟨bytes, rest, encodes, isDrop⟩ :=
    encoded_of_assemble assembles resolves
  refine Cpu.fetches holds encodes isDrop ?_
  intro index inside
  have entered := boots.entered
  have isNumber : bootAddress = 0x7C00 := rfl
  change offsetOf place.line < 27 at small
  rw [here.frame.cs, here.ip, BitVec.add_assoc, ← BitVec.ofNat_add]
  exact physical_of_fits entered (by omega) (by omega)

theorem ip_of_eq {ip base front size behind : Word} (isIp : ip = base + front)
    (sum : front + size = behind) : ip + size = base + behind := by
  rw [isIp, BitVec.add_assoc, sum]

theorem Place.Data.of_same {next : Cpu} (data : place.Data message cpu)
    (registers : next.registers = cpu.registers)
    (isZero : next.isZero = cpu.isZero) :
    place.Data message next := by
  cases place with
  | atStage stage read =>
      exact
        { si := by
            rw [registers]
            exact data.si
          bx := by
            rw [registers]
            exact data.bx
          al := by
            rw [registers]
            exact data.al
          isZero := by
            rw [isZero]
            exact data.isZero
          ah := by
            rw [registers]
            exact data.ah }
  | callsPrint | clearsBx =>
      exact (congrFun registers .si).trans data
  | start | returns | halts =>
      exact trivial

theorem At.jump {offset : Nat} (here : At message boot place offset cpu)
    (size : Nat) :
    At message boot place (offset + size)
      (cpu.jump (BitVec.ofNat 16 size)) where
  frame := here.frame.jump _
  ip := ip_of_eq here.ip (BitVec.ofNat_add offset size).symm
  data := here.data.of_same rfl rfl

/-- An instruction, behind which `ip` stands, leads to the next place. -/
def Leads (message : List UInt8) (boot cpu : Cpu) (service : Service)
    (place next : Place) : Prop :=
  At message boot place (offsetOf place.line + place.instruction.size) cpu →
    At message boot next (offsetOf next.line)
      (cpu.execute service place.instruction).1

variable {read : Nat} {service : Service}

theorem leads_start :
    Leads message boot cpu service .start .callsPrint := by
  intro here
  exact
    { frame := here.frame.of_same rfl rfl rfl rfl rfl
        (Cpu.set_of_ne (by decide) _ _)
      ip := here.ip
      data := Cpu.set_self _ _ _ }

theorem leads_callsPrint (boots : Boots message boot) :
    Leads message boot cpu service .callsPrint .clearsBx := by
  intro here
  have pushed := here.frame.push boots (Nat.zero_le 1) 6
  have isReturn : cpu.ip = boot.ip + BitVec.ofNat 16 6 := here.ip
  rw [← isReturn] at pushed
  exact
    { frame := pushed.jump _
      ip := ip_of_eq isReturn rfl
      data := (cpu.push_of_ne (by decide) cpu.ip).trans here.data }

theorem leads_clearsBx :
    Leads message boot cpu service .clearsBx (.atStage .loads 0) := by
  intro here
  exact
    { frame := here.frame.of_same rfl rfl rfl rfl rfl
        (Cpu.set_of_ne (by decide) _ _)
      ip := here.ip
      data :=
        { si := (Cpu.set_of_ne (by decide) _ _).trans here.data
          bx := Cpu.set_self _ _ _
          al := fun positive => absurd positive (by decide)
          isZero := fun same => absurd same (by decide)
          ah := fun same => absurd same (by decide) } }

theorem leads_loads (inside : read ≤ message.length) :
    Leads message boot cpu service (.atStage .loads read)
      (.atStage .compares read) := by
  intro here
  have isSi : cpu.registers .si =
      BitVec.ofNat 16 (bootAddress + (27 + read)) := here.data.si
  have isAddress : physical cpu.ds (cpu.registers .si) =
      bootAddress + (27 + read) := by
    obtain ⟨image, assembles, _⟩ := here.frame.loaded
    have fits := length_le_of_assemble assembles
    have isNumber : bootAddress = 0x7C00 := rfl
    have zero : (0 : Word).toNat = 0 := rfl
    rw [List.length_append, List.length_singleton] at fits
    rw [here.frame.ds, isSi, physical, zero, BitVec.toNat_ofNat]
    omega
  have isChar := here.frame.loaded.char inside
  rw [← isAddress] at isChar
  exact
    { frame := here.frame.of_same rfl rfl rfl rfl rfl
        (Cpu.lodsb_of_ne (by decide) (by decide) cpu service)
      ip := here.ip
      data :=
        { si := by
            have passed := Cpu.lodsb_si here.frame.up service
            rw [isSi] at passed
            exact passed.trans (BitVec.ofNat_add _ 1).symm
          bx := (Cpu.lodsb_of_ne (by decide) (by decide) cpu service).trans
            here.data.bx
          al := fun _ _ => (Cpu.lodsb_al cpu service).trans isChar
          isZero := fun same => absurd same (by decide)
          ah := fun same => absurd same (by decide) } }

theorem leads_compares :
    Leads message boot cpu service (.atStage .compares read)
      (.atStage .branches read) := by
  intro here
  have isChar := here.data.al (by decide) (by decide)
  exact
    { frame := here.frame.of_same rfl rfl rfl rfl rfl rfl
      ip := here.ip
      data :=
        { si := here.data.si
          bx := here.data.bx
          al := fun _ _ => isChar
          isZero := fun _ => by
            rw [← isChar]
            rfl
          ah := fun same => absurd same (by decide) } }

/-- `je .done` -/
theorem leads_branches :
    Leads message boot cpu service (.atStage .branches read)
      (Place.next message (.atStage .branches read)) := by
  intro here
  have isZero : cpu.isZero = decide (message.getD read 0 = 0) :=
    here.data.isZero rfl
  have executes : (cpu.execute service (.je 5)).1 =
      if cpu.isZero then cpu.jump 5 else cpu := rfl
  rw [Place.next]
  by_cases ends : message.getD read 0 = 0
  · rw [decide_eq_true ends] at isZero
    rw [if_pos isZero] at executes
    rw [if_pos ends]
    have jumped := here.jump 5
    rw [Place.instruction, Stage.instruction, executes]
    exact { frame := jumped.frame, ip := jumped.ip, data := trivial }
  · rw [decide_eq_false ends] at isZero
    rw [if_neg (by rw [isZero]; exact Bool.false_ne_true)] at executes
    rw [if_neg ends]
    rw [Place.instruction, Stage.instruction, executes]
    exact
      { frame := here.frame
        ip := here.ip
        data :=
          { si := here.data.si
            bx := here.data.bx
            al := fun _ _ => here.data.al (by decide) (by decide)
            isZero := fun same => absurd same (by decide)
            ah := fun same => absurd same (by decide) } }

/-- `call print_char` -/
theorem leads_calls (boots : Boots message boot) :
    Leads message boot cpu service (.atStage .calls read)
      (.atStage .setsAh read) := by
  intro here
  have pushed := here.frame.push boots (Nat.le_refl 1) 19
  have isReturn : cpu.ip = boot.ip + BitVec.ofNat 16 19 := here.ip
  rw [← isReturn] at pushed
  exact
    { frame := pushed.jump _
      ip := ip_of_eq isReturn rfl
      data :=
        { si := (cpu.push_of_ne (by decide) cpu.ip).trans here.data.si
          bx := (cpu.push_of_ne (by decide) cpu.ip).trans here.data.bx
          al := fun _ _ =>
            (congrArg lowByte (cpu.push_of_ne (by decide) cpu.ip)).trans
              (here.data.al (by decide) (by decide))
          isZero := fun same => absurd same (by decide)
          ah := fun same => absurd same (by decide) } }

theorem leads_setsAh :
    Leads message boot cpu service (.atStage .setsAh read)
      (.atStage .prints read) := by
  intro here
  have isAx := @Cpu.setByte_high .ah rfl cpu 0x0E
  have isChar := here.data.al (by decide) (by decide)
  exact
    { frame := here.frame.of_same rfl rfl rfl rfl rfl
        (Cpu.setByte_of_ne (by decide) _ _)
      ip := here.ip
      data :=
        { si := (Cpu.setByte_of_ne (by decide) _ _).trans here.data.si
          bx := (Cpu.setByte_of_ne (by decide) _ _).trans here.data.bx
          al := fun _ _ =>
            (congrArg lowByte isAx).trans
              ((lowByte_wordOf _ _).trans isChar)
          isZero := fun same => absurd same (by decide)
          ah := fun _ => (congrArg highByte isAx).trans
            (highByte_wordOf _ _) } }

theorem leads_prints (boots : Boots message boot)
    (kept : Kept cpu service.ram) :
    Leads message boot cpu service (.atStage .prints read)
      (.atStage .returns read) := by
  intro here
  have frame := here.frame.keep boots (Nat.le_refl 2) kept
  have same {register : Register} (notAx : register ≠ .ax)
      (notBp : register ≠ .bp) :
      (cpu.execute service (.int 0x10)).1.registers register =
        cpu.registers register :=
    (Cpu.set_of_ne notBp _ _).trans (Cpu.set_of_ne notAx _ _)
  exact
    { frame := frame.of_same rfl rfl rfl rfl rfl
        (same (by decide) (by decide))
      ip := here.ip
      data :=
        { si := (same (by decide) (by decide)).trans here.data.si
          bx := (same (by decide) (by decide)).trans here.data.bx
          al := fun _ atMost => absurd atMost (by decide)
          isZero := fun same => absurd same (by decide)
          ah := fun same => absurd same (by decide) } }

/-- The service is asked for the character at hand. -/
theorem prints_teletype
    (here : At message boot (.atStage .prints read)
      (offsetOf (Place.atStage .prints read).line +
        (Place.atStage .prints read).instruction.size) cpu) :
    (cpu.execute service (.int 0x10)).2 =
      [teletype (message.getD read 0)] := by
  have isAx : cpu.registers .ax = wordOf (message.getD read 0) 0x0E := by
    rw [← here.data.al (by decide) (by decide), ← here.data.ah rfl,
      wordOf_lowByte_highByte]
  rw [Cpu.execute, isAx, here.data.bx, teletype]

/-- A return goes to the place that is on top of the stack. -/
theorem leads_ret {offset : Nat} {stack : List Nat}
    (frame : Frame message boot (offset :: stack) cpu) :
    Frame message boot stack (cpu.execute service .ret).1 ∧
      (cpu.execute service .ret).1.ip = boot.ip + BitVec.ofNat 16 offset :=
  ⟨frame.pop.2.of_same rfl rfl rfl rfl rfl rfl, frame.pop.1⟩

theorem leads_returnsFromChar :
    Leads message boot cpu service (.atStage .returns read)
      (.atStage .jumps read) := by
  intro here
  obtain ⟨frame, ip⟩ :=
    @leads_ret message boot cpu service 19 [6] here.frame
  have same {register : Register} (notSp : register ≠ .sp) :
      (cpu.execute service .ret).1.registers register =
        cpu.registers register :=
    Cpu.set_of_ne notSp _ _
  exact
    { frame
      ip
      data :=
        { si := (same (by decide)).trans here.data.si
          bx := (same (by decide)).trans here.data.bx
          al := fun _ atMost => absurd atMost (by decide)
          isZero := fun same => absurd same (by decide)
          ah := fun same => absurd same (by decide) } }

theorem leads_jumps :
    Leads message boot cpu service (.atStage .jumps read)
      (.atStage .loads (read + 1)) := by
  intro here
  have isIp : cpu.ip = boot.ip + BitVec.ofNat 16 21 := here.ip
  have jumped : cpu.ip + 0xFFF6 = boot.ip + BitVec.ofNat 16 11 :=
    ip_of_eq isIp (by decide)
  have executes :
      (cpu.execute service (.jmp 0xFFF6)).1 = cpu.jump 0xFFF6 := rfl
  rw [Place.instruction, Stage.instruction, executes]
  exact
    { frame := here.frame.jump _
      ip := jumped
      data :=
        { si := here.data.si
          bx := here.data.bx
          al := fun positive => absurd positive (by decide)
          isZero := fun same => absurd same (by decide)
          ah := fun same => absurd same (by decide) } }

theorem leads_returns :
    Leads message boot cpu service .returns .halts := by
  intro here
  obtain ⟨frame, ip⟩ := @leads_ret message boot cpu service 6 [] here.frame
  exact { frame, ip, data := trivial }

/-- `jmp $` -/
theorem leads_halts : Leads message boot cpu service .halts .halts := by
  intro here
  have isIp : cpu.ip = boot.ip + BitVec.ofNat 16 8 := here.ip
  have jumped : cpu.ip + 0xFFFE = boot.ip + BitVec.ofNat 16 6 :=
    ip_of_eq isIp (by decide)
  have executes :
      (cpu.execute service (.jmp 0xFFFE)).1 = cpu.jump 0xFFFE := rfl
  rw [Place.instruction, executes]
  exact
    { frame := here.frame.jump _
      ip := jumped
      data := trivial }

/-- Every instruction leads to the next place. -/
theorem leads_next (boots : Boots message boot) {count : Nat}
    (clock : place.Clock message count)
    (kept : ∀ vector, place.instruction = .int vector →
      Kept cpu service.ram) :
    Leads message boot cpu service place (place.next message) := by
  cases place with
  | start =>
      exact leads_start
  | callsPrint =>
      exact leads_callsPrint boots
  | clearsBx =>
      exact leads_clearsBx
  | atStage stage read =>
      cases stage with
      | loads =>
          exact leads_loads clock.2.1
      | compares =>
          exact leads_compares
      | branches =>
          exact leads_branches
      | calls =>
          exact leads_calls boots
      | setsAh =>
          exact leads_setsAh
      | prints =>
          exact leads_prints boots (kept 0x10 rfl)
      | returns =>
          exact leads_returnsFromChar
      | jumps =>
          exact leads_jumps
  | returns =>
      exact leads_returns
  | halts =>
      exact leads_halts

/-- The services that are asked for print one character more. -/
theorem asked_next (free : NulFree message) {count : Nat}
    (clock : place.Clock message count)
    (here : At message boot place
      (offsetOf place.line + place.instruction.size) cpu) :
    (message.take (place.printed message)).map teletype ++
        (cpu.execute service place.instruction).2 =
      (message.take ((place.next message).printed message)).map
        teletype := by
  cases place with
  | atStage stage read =>
      obtain ⟨_, atMost, below⟩ := clock
      cases stage with
      | branches =>
          have nothing : (cpu.execute service
            (Place.atStage .branches read).instruction).2 = [] := rfl
          rw [nothing, List.append_nil, Place.next]
          by_cases ends : message.getD read 0 = 0
          · have whole := (getD_eq_zero_iff free read).mp ends
            rw [if_pos ends, Nat.le_antisymm atMost whole]
            rfl
          · rw [if_neg ends]
            rfl
      | prints =>
          have inside := below (by decide)
          have isChar : message.getD read 0 = message[read] := by
            rw [List.getD_eq_getElem?_getD, List.getElem?_eq_getElem inside,
              Option.getD_some]
          have onePrinted : (Place.atStage .prints read).printed message =
              read := rfl
          have nextPrinted :
              ((Place.atStage .prints read).next message).printed message =
                read + 1 := rfl
          rw [onePrinted, nextPrinted, List.take_succ_eq_append_getElem inside,
            List.map_append, List.map_singleton, ← isChar]
          exact congrArg _ (prints_teletype here)
      | _ =>
          exact List.append_nil _
  | _ =>
      exact List.append_nil _

end Steps

/-! ## Runs -/

/-- The computer is at the place that the number of instructions says, and
has asked for what belongs to it. -/
def Follows (message : List UInt8) (boot : Cpu) (history : List Turn)
    (computer : Computer) : Prop :=
  ∃ place : Place,
    At message boot place (offsetOf place.line) computer.cpu ∧
      place.Clock message (instructions history) ∧
      computer.asked =
        (message.take (place.printed message)).map teletype

section Runs

variable {message : List UInt8} {boot : Cpu} {history : List Turn}
  {computer : Computer}

theorem Follows.instruction (free : NulFree message)
    (boots : Boots message boot)
    (follows : Follows message boot history computer) (service : Service)
    (spares : Spares computer.cpu (.instruction service)) :
    ∃ next, computer.step (.instruction service) = .ok (next, ()) ∧
      Follows message boot (history ++ [.instruction service]) next := by
  obtain ⟨place, here, clock, asked⟩ := follows
  have fetches := here.fetches boots
  have kept : ∀ vector, place.instruction = .int vector →
      Kept (computer.cpu.jump (BitVec.ofNat 16 place.instruction.size))
        service.ram := by
    intro vector isInt
    rw [isInt] at fetches
    have kept := spares vector fetches
    exact ⟨kept.sector, kept.stack⟩
  have jumped := here.jump place.instruction.size
  refine ⟨_, Computer.step_instruction fetches service rfl,
    place.next message, leads_next boots clock kept jumped, ?_, ?_⟩
  · have counted : instructions (history ++ [.instruction service]) =
        instructions history + 1 := by
      rw [instructions, List.countP_append]
      rfl
    rw [counted]
    exact clock.next free
  · rw [asked]
    exact asked_next free clock jumped

theorem Follows.interrupt (boots : Boots message boot)
    (follows : Follows message boot history computer) {ram : Nat → UInt8}
    (kept : Kept computer.cpu ram) :
    ∃ next, computer.step (.interrupt ram) = .ok (next, ()) ∧
      Follows message boot (history ++ [.interrupt ram]) next := by
  obtain ⟨place, here, clock, asked⟩ := follows
  have short : place.stack.length ≤ 2 := by
    cases place with
    | atStage stage read =>
        rw [Place.stack]
        cases stage <;> decide
    | _ =>
        simp [Place.stack]
  refine ⟨{ cpu := { computer.cpu with ram }, asked := computer.asked }, ?_,
    place, ?_, ?_, asked⟩
  · rw [Computer.step, Cpu.step]
    simp only [Except.map, List.append_nil]
  · exact
      { frame := here.frame.keep boots short kept
        ip := here.ip
        data := here.data.of_same rfl rfl }
  · have counted : instructions (history ++ [.interrupt ram]) =
        instructions history := by
      rw [instructions, List.countP_append]
      rfl
    rw [counted]
    exact clock

/-- Under whatever segment the sector is entered, and whatever the service
and the interrupts do apart from it and its stack: no instruction is undefined,
behind every number of instructions the characters that have had their turn are
printed, each turn being eight instructions, and behind the last one the
processor stays at `jmp $`. -/
theorem bootSector_prints (free : NulFree message)
    (boots : Boots message boot)
    (spares : AtEveryStep (SparesProgram boot) history) :
    ∃ computer, computerAfter boot history = .ok computer ∧
      computer.asked =
        (message.take ((instructions history - 1) / 8)).map teletype ∧
      (8 * message.length + 7 ≤ instructions history →
        computer.cpu.ip = boot.ip + 6) ∧
      Loaded message computer.cpu.ram := by
  have initial : Follows message boot [] { cpu := boot, asked := [] } := by
    refine ⟨.start, ?_, rfl, rfl⟩
    exact
      { frame :=
          { cs := rfl
            ds := boots.ds
            ss := rfl
            up := boots.up
            loaded := boots.loaded
            sp := (BitVec.sub_zero _).symm
            stacked := trivial }
        ip := (BitVec.add_zero _).symm
        data := trivial }
  obtain ⟨computer, reached, place, here, clock, asked⟩ :=
    after_total_of_steps (Follows message boot) (SparesProgram boot) initial
      (by
        intro front turn middle reached follows spares
        have sparesHere := spares middle reached
        cases turn with
        | instruction service =>
            obtain ⟨next, handled, related⟩ :=
              follows.instruction free boots service sparesHere
            exact ⟨next, (), handled, related⟩
        | interrupt ram =>
            obtain ⟨next, handled, related⟩ :=
              follows.interrupt boots sparesHere
            exact ⟨next, (), handled, related⟩)
      spares
  refine ⟨computer, reached, ?_, ?_, here.frame.loaded⟩
  · rw [asked, clock.printed]
  · intro enough
    cases place with
    | halts =>
        exact here.ip
    | atStage stage read =>
        obtain ⟨isCount, atMost, below⟩ := clock
        have small : stage.number ≤ 7 := by
          cases stage <;> decide
        omega
    | start | callsPrint | clearsBx | returns =>
        rw [Place.Clock] at clock
        omega

end Runs

/-- A run in which the services and interrupts leave the whole memory
alone. -/
def quietHistory (boot : Cpu) : Nat → List Turn
  | 0 => []
  | count + 1 =>
      let front := quietHistory boot count
      let ram := match computerAfter boot front with
        | .ok computer => computer.cpu.ram
        | .error _ => boot.ram
      front ++ [.instruction { ax := 0, bp := 0, ram }]

theorem instructions_quietHistory (boot : Cpu) (count : Nat) :
    instructions (quietHistory boot count) = count := by
  induction count with
  | zero =>
      rfl
  | succ count inductionHypothesis =>
      rw [instructions] at inductionHypothesis
      rw [quietHistory, instructions, List.countP_append,
        inductionHypothesis]
      rfl

theorem quietHistory_spares (boot : Cpu) (count : Nat) :
    AtEveryStep (SparesProgram boot) (quietHistory boot count) := by
  induction count with
  | zero =>
      exact atEveryStep_nil _
  | succ count inductionHypothesis =>
      rw [quietHistory, atEveryStep_concat_iff]
      refine ⟨inductionHypothesis, ?_⟩
      intro computer reached vector _
      rw [reached]
      exact ⟨fun _ _ => rfl, fun _ _ => rfl⟩

/-- The BIOS has loaded the image and jumps to it, with a stack below. -/
def bootWith (image : List UInt8) : Cpu where
  registers := Function.update (fun _ => 0) .sp 0x7C00
  ip := 0x7C00
  cs := 0
  ds := 0
  ss := 0
  isZero := false
  isDown := false
  ram address := image.getD (address - bootAddress) 0

theorem bootWith_holds (image : List UInt8) :
    Holds (bootWith image).ram bootAddress image := by
  intro index byte isByte
  rw [bootWith]
  dsimp only
  rw [Nat.add_sub_cancel_left, List.getD_eq_getElem?_getD, isByte,
    Option.getD_some]

def helloBoot : Cpu :=
  bootWith ((assemble 0x7C00 (bootSector helloMessage)).getD [])

theorem helloBoot_boots : Boots helloMessage helloBoot where
  loaded := by
    have isSome :
        (assemble 0x7C00 (bootSector helloMessage)).isSome = true := by
      decide +kernel
    obtain ⟨image, assembles⟩ := Option.isSome_iff_exists.mp isSome
    refine ⟨image, assembles, ?_⟩
    rw [helloBoot, assembles, Option.getD_some]
    exact bootWith_holds image
  entered := rfl
  ds := rfl
  up := rfl
  room := by
    decide
  apart := by
    intro below positive small inSector
    have isSp : helloBoot.registers .sp = 0x7C00 := rfl
    have isSs : helloBoot.ss = 0 := rfl
    have number : (0x7C00 : Word).toNat = 0x7C00 := rfl
    have zero : (0 : Word).toNat = 0 := rfl
    have isNumber : bootAddress = 0x7C00 := rfl
    rw [isSp, isSs, InSector, physical, BitVec.toNat_sub, BitVec.toNat_ofNat,
      number, zero] at inSector
    omega

theorem bootSector_prints_helloMessage :
    ∃ computer,
      computerAfter helloBoot (quietHistory helloBoot 423) = .ok computer ∧
        computer.asked = helloMessage.map teletype ∧
        computer.cpu.ip = 0x7C06 := by
  obtain ⟨computer, reached, asked, halts, _⟩ :=
    bootSector_prints (by decide) helloBoot_boots
      (quietHistory_spares helloBoot 423)
  have length : helloMessage.length = 52 := by
    decide +kernel
  rw [instructions_quietHistory] at asked halts
  rw [List.take_of_length_le (by omega)] at asked
  exact ⟨computer, reached, asked, halts (by omega)⟩

end Esp32Source.LearnAsm
