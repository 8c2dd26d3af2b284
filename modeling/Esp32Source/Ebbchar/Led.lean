import Esp32Source.Ebbchar.Driver

/-!
# The LED bit over mixed histories

Bit 10 of the data register is written by two entry points: `dev_write` when
the message buffer equals a command, and `workQueueFunc`, which inverts it.
`commandedLevel` is the level that the payloads alone ask for.

The message is compared as a whole, with the tail of a longer earlier text
behind the payload.  The bit follows `commandedLevel` in every state of a run
exactly when each write is decided by its payload alone.
-/

namespace Esp32Source.Ebbchar

open Memory Machine

def ledLevel (driver : Driver) : Bool :=
  driver.paDatReg.getLsbD 10

/-- The level that a text commands, if it is a command. -/
def readCommand (text : List UInt8) : Option Bool :=
  if text = command true then some true
  else if text = command false then some false
  else none

/-- What one call asks of the LED when it shows `level`. -/
def commandedBy (level : Bool) : Call → Bool
  | .write buffer _ => (readCommand buffer).getD level
  | .work => !level
  | _ => level

/-- The level of the last write whose payload is exactly a command, inverted
once for every `workQueueFunc` run behind it, or the initial level inverted
once for every run if there was no such write. -/
def commandedLevel (initial : Bool) (history : List Call) : Bool :=
  history.foldl commandedBy initial

theorem commandedLevel_concat
    (initial : Bool) (history : List Call) (call : Call) :
    commandedLevel initial (history ++ [call]) =
      commandedBy (commandedLevel initial history) call := by
  rw [commandedLevel, List.foldl_append]
  rfl

/-! ## One call -/

/-- Bit 10 takes a level and every other bit is kept. -/
structure SetsLed (register next : BitVec 32) (level : Bool) : Prop where
  led : next.getLsbD 10 = level
  others : ∀ index, index ≠ 10 →
    next.getLsbD index = register.getLsbD index

theorem turnOn_setsLed (register : BitVec 32) :
    SetsLed register (turnOn register) true where
  led := by
    rw [turnOn, getLsbD_setBit register 10 10 (by decide)]
    rfl
  others := fun index other => by
    rw [turnOn, getLsbD_setBit register 10 index (by decide), if_neg other]

theorem turnOff_setsLed (register : BitVec 32) :
    SetsLed register (turnOff register) false where
  led := by
    rw [turnOff, getLsbD_clearBit register 10 10 (by decide)]
    rfl
  others := fun index other => by
    rw [turnOff, getLsbD_clearBit register 10 index (by decide),
      if_neg other]

theorem applyCommand_setsLed (message : Buffer 256) (register : BitVec 32) :
    SetsLed register (applyCommand message register)
      ((readCommand (cText message.cells)).getD
        (register.getLsbD 10)) := by
  simp only [applyCommand, readCommand]
  by_cases isOn : cText message.cells = command true
  · rw [if_pos isOn, if_pos isOn]
    exact turnOn_setsLed register
  · by_cases isOff : cText message.cells = command false
    · rw [if_neg isOn, if_neg isOn, if_pos isOff, if_pos isOff]
      exact turnOff_setsLed register
    · rw [if_neg isOn, if_neg isOn, if_neg isOff, if_neg isOff]
      exact ⟨rfl, fun _ _ => rfl⟩

theorem workQueueFunc_setsLed (driver : Driver) :
    SetsLed driver.paDatReg (workQueueFunc driver).paDatReg
      (!ledLevel driver) := by
  have zeroIff := shiftRight_and_one_eq_zero_iff driver.paDatReg 10
  have cleared := turnOff_setsLed driver.paDatReg
  cases level : driver.paDatReg.getLsbD 10 with
  | false =>
      have set := turnOn_setsLed (turnOff driver.paDatReg)
      have shape :
          (workQueueFunc driver).paDatReg =
            turnOn (turnOff driver.paDatReg) := by
        simp only [workQueueFunc, if_pos (zeroIff.mpr level)]
        rfl
      rw [shape, ledLevel, level]
      exact ⟨set.led, fun index other => by
        rw [set.others index other, cleared.others index other]⟩
  | true =>
      have notZero :
          ¬ (driver.paDatReg >>> 10) &&& 1#32 = 0#32 := by
        rw [zeroIff, level]
        decide
      have shape :
          (workQueueFunc driver).paDatReg = turnOff driver.paDatReg := by
        simp only [workQueueFunc, if_neg notZero]
        simp [turnOff]
      rw [shape, ledLevel, level]
      exact cleared

/-! ## Writes that are decided by their payload -/

/-- The payload alone decides what a write does to an LED at `level` when the
buffer holds `text`: a command is not followed by more text, and a command
without its newline is not completed by the newline of a two-byte text.
Either does no harm when the LED is at the level already. -/
def DecidedByPayload (level : Bool) (text payload : List UInt8) : Prop :=
  ∀ commanded,
    (payload = command commanded →
      text.length ≤ 2 ∨ level = commanded) ∧
    (payload ++ ascii "\n" = command commanded →
      text.drop 1 = ascii "\n" → level = commanded)

theorem length_command (level : Bool) : (command level).length = 2 := by
  cases level <;> rfl

theorem readCommand_eq_some_iff (text : List UInt8) (level : Bool) :
    readCommand text = some level ↔ text = command level := by
  have distinct : command false ≠ command true := by decide
  simp only [readCommand]
  by_cases isOn : text = command true
  · subst isOn
    cases level <;> simp [distinct.symm]
  · by_cases isOff : text = command false
    · subst isOff
      cases level <;> simp [distinct]
    · cases level <;> simp [isOn, isOff]

theorem readCommand_eq_none_of_length {text : List UInt8}
    (length : text.length ≠ 2) : readCommand text = none := by
  cases read : readCommand text with
  | none =>
      rfl
  | some level =>
      have equality := (readCommand_eq_some_iff text level).mp read
      rw [equality, length_command] at length
      exact absurd rfl length

/-- The two ways in which the buffer comes to hold a command. -/
theorem overlay_eq_command_iff (text : List UInt8) {payload : List UInt8}
    (nonempty : 1 ≤ payload.length) (level : Bool) :
    overlay payload text = command level ↔
      (payload = command level ∧ text.length ≤ 2) ∨
        (payload ++ ascii "\n" = command level ∧
          text.drop 1 = ascii "\n") := by
  obtain ⟨first, rest, rfl⟩ :=
    List.exists_cons_of_length_pos nonempty
  have shape : ∃ digit, command level = [digit, 10] := by
    cases level
    · exact ⟨48, rfl⟩
    · exact ⟨49, rfl⟩
  have newline : ascii "\n" = [10] := rfl
  obtain ⟨digit, isCommand⟩ := shape
  rw [isCommand, newline, overlay]
  cases rest with
  | nil =>
      simp
  | cons second others =>
      cases others with
      | nil =>
          simp [and_assoc]
      | cons third tail =>
          simp

theorem readCommand_getD_eq_iff (level : Bool) (text : List UInt8)
    {payload : List UInt8} (nonempty : 1 ≤ payload.length) :
    (readCommand (overlay payload text)).getD level =
        (readCommand payload).getD level ↔
      DecidedByPayload level text payload := by
  have shortened :
      ∀ commanded, payload ++ ascii "\n" = command commanded →
        readCommand payload = none := by
    intro commanded completed
    have lengths := congrArg List.length completed
    rw [List.length_append, length_command] at lengths
    apply readCommand_eq_none_of_length
    have newlineLength : (ascii "\n").length = 1 := rfl
    omega
  constructor
  · intro sameLevel commanded
    constructor
    · intro isCommand
      by_cases short : text.length ≤ 2
      · exact Or.inl short
      · have hidden : readCommand (overlay payload text) = none := by
          apply readCommand_eq_none_of_length
          rw [length_overlay, isCommand, length_command]
          omega
        have own := (readCommand_eq_some_iff payload commanded).mpr isCommand
        rw [hidden, own] at sameLevel
        exact Or.inr sameLevel
    · intro completed newline
      have held :=
        (overlay_eq_command_iff text nonempty commanded).mpr
          (Or.inr ⟨completed, newline⟩)
      rw [(readCommand_eq_some_iff _ commanded).mpr held,
        shortened commanded completed] at sameLevel
      exact sameLevel.symm
  · intro decided
    cases read : readCommand (overlay payload text) with
    | some commanded =>
        have held := (readCommand_eq_some_iff _ commanded).mp read
        rcases (overlay_eq_command_iff text nonempty commanded).mp held with
          ⟨isCommand, _⟩ | ⟨completed, newline⟩
        · rw [(readCommand_eq_some_iff payload commanded).mpr isCommand]
        · rw [shortened commanded completed]
          exact ((decided commanded).2 completed newline).symm
    | none =>
        cases own : readCommand payload with
        | none =>
            rfl
        | some commanded =>
            have isCommand :=
              (readCommand_eq_some_iff payload commanded).mp own
            rcases (decided commanded).1 isCommand with short | atLevel
            · have held :=
                (overlay_eq_command_iff text nonempty commanded).mpr
                  (Or.inl ⟨isCommand, short⟩)
              rw [(readCommand_eq_some_iff _ commanded).mpr held] at read
              cases read
            · exact atLevel

/-! ## Whole runs -/

/-- What one call leaves on the LED when the buffer holds `text`. -/
def shownBy (level : Bool) (text : List UInt8) : Call → Bool
  | .write buffer _ => (readCommand (overlay buffer text)).getD level
  | call => commandedBy level call

theorem handle_setsLed {text : List UInt8} {driver : Driver}
    (holds : Holds text driver) {call : Call} (allowed : call.WellFormed) :
    ∃ next reply,
      handle driver call = .ok (next, reply) ∧
        SetsLed driver.paDatReg next.paDatReg
          (shownBy (ledLevel driver) text call) := by
  cases call with
  | write buffer uncopied =>
      obtain ⟨_, short, free, rfl⟩ := allowed
      obtain ⟨next, written, nextHolds, register⟩ :=
        devWrite_holds holds short free
      refine ⟨next, _, written, ?_⟩
      have set := applyCommand_setsLed next.message driver.paDatReg
      rw [nextHolds.cText_eq] at set
      rw [register]
      exact set
  | work =>
      exact ⟨_, _, rfl, workQueueFunc_setsLed driver⟩
  | _ =>
      exact ⟨_, _, rfl, rfl, fun _ _ => rfl⟩

/-- The state after a history exists, bit 10 is at the commanded level and
every other bit of the data register is as it was at the start. -/
def LedFollows (paDatReg : BitVec 32) (history : List Call) : Prop :=
  ∃ driver,
    driverAfter paDatReg history = .ok driver ∧
      SetsLed paDatReg driver.paDatReg
        (commandedLevel (paDatReg.getLsbD 10) history)

/-- A call that is a write is decided by its payload in the state that the
history leads to. -/
def WriteDecided (paDatReg : BitVec 32)
    (history : List Call) (call : Call) : Prop :=
  ∀ payload driver,
    call.payload = some payload →
      driverAfter paDatReg history = .ok driver →
        DecidedByPayload (ledLevel driver) (cText driver.message.cells)
          payload

/-- While the bit follows the commands, the next call keeps it so exactly if
it is decided by its payload. -/
theorem ledFollows_concat_iff
    (paDatReg : BitVec 32) (history : List Call) (call : Call)
    (wellFormed : ∀ earlier, earlier ∈ history → earlier.WellFormed)
    (allowed : call.WellFormed)
    (follows : LedFollows paDatReg history) :
    LedFollows paDatReg (history ++ [call]) ↔
      WriteDecided paDatReg history call := by
  obtain ⟨driver, reached, set⟩ := follows
  obtain ⟨sameDriver, reachedToo, holds⟩ :=
    driverAfter_holds paDatReg wellFormed
  rw [reached] at reachedToo
  cases reachedToo
  obtain ⟨next, reply, handled, setNext⟩ := handle_setsLed holds allowed
  have reachedNext :
      driverAfter paDatReg (history ++ [call]) = .ok next :=
    after_concat_of_ok reached handled
  have level : ledLevel driver =
      commandedLevel (paDatReg.getLsbD 10) history := set.led
  have followsIff :
      LedFollows paDatReg (history ++ [call]) ↔
        shownBy (ledLevel driver) (overlayAll [] (payloads history)) call =
          commandedBy (ledLevel driver) call := by
    rw [LedFollows, commandedLevel_concat, ← level]
    constructor
    · intro exists_
      obtain ⟨final, reachedFinal, setFinal⟩ := exists_
      rw [reachedNext] at reachedFinal
      cases reachedFinal
      rw [← setNext.led, setFinal.led]
    · intro same
      refine ⟨next, reachedNext, ?_, ?_⟩
      · rw [setNext.led, same]
      · intro index other
        rw [setNext.others index other, set.others index other]
  rw [followsIff]
  cases call with
  | write buffer uncopied =>
      have decidedIff :=
        readCommand_getD_eq_iff (ledLevel driver)
          (overlayAll [] (payloads history)) allowed.1
      refine decidedIff.trans ?_
      rw [← holds.cText_eq]
      constructor
      · intro decided payload state isPayload reachedState
        rw [reached] at reachedState
        cases reachedState
        cases isPayload
        exact decided
      · intro decided
        exact decided buffer driver rfl reached
  | _ =>
      refine iff_of_true rfl ?_
      intro payload state isPayload
      cases isPayload

/-- In every state of a run bit 10 is at the commanded level, and the other
bits are kept, exactly when every write is decided by its payload in the state
it is made in. -/
theorem led_follows_commands_iff
    (paDatReg : BitVec 32) (history : List Call)
    (wellFormed : ∀ call, call ∈ history → call.WellFormed) :
    AtEveryState (LedFollows paDatReg) history ↔
      AtEveryStep (WriteDecided paDatReg) history := by
  refine atEveryState_iff_atEveryStep Call.WellFormed ?_ ?_ wellFormed
  · exact ⟨Driver.initial paDatReg, rfl, rfl, fun _ _ => rfl⟩
  · intro earlier call earlierFormed allowed everywhere
    exact ledFollows_concat_iff paDatReg earlier call earlierFormed allowed
      everywhere.last

/-- `"1\n"` written after `"hello"` leaves the LED off. -/
def commandAfterText : List Call :=
  [.write (ascii "hello") 0, .write (ascii "1\n") 0]

theorem commandAfterText_wellFormed :
    ∀ call, call ∈ commandAfterText → call.WellFormed := by
  decide

theorem led_ignores_command_after_text :
    (∀ call, call ∈ commandAfterText → call.WellFormed) ∧
      commandedLevel false commandAfterText = true ∧
      (driverAfter 0 commandAfterText).map ledLevel = .ok false ∧
      ¬ LedFollows 0 commandAfterText := by
  have commanded : commandedLevel false commandAfterText = true := by
    decide
  have shown :
      (driverAfter 0 commandAfterText).map ledLevel = .ok false := by
    decide +kernel
  refine ⟨commandAfterText_wellFormed, commanded, shown, ?_⟩
  intro follows
  obtain ⟨driver, reached, set⟩ := follows
  rw [reached] at shown
  have off : ledLevel driver = false := Except.ok.inj shown
  have on : ledLevel driver = true := set.led.trans commanded
  rw [off] at on
  cases on

theorem led_follows_commands_iff_commandAfterText :
    AtEveryState (LedFollows 0) commandAfterText ↔
      AtEveryStep (WriteDecided 0) commandAfterText :=
  led_follows_commands_iff 0 commandAfterText commandAfterText_wellFormed

end Esp32Source.Ebbchar
