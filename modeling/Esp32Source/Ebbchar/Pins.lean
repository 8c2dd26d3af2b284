import Esp32Source.Ebbchar.Module

/-!
# The pin registers after a load

`ebbchar_init` means to make PA8, PA9 and PA10 outputs that are pulled down,
and PA7 an input that is pulled up and interrupts at a falling edge.  Only the
pull fields of the outputs are cleared before they are written.  The other
fields get what an AND mask or an OR mask alone makes of their old bits.
-/

namespace Esp32Source.Ebbchar

open Memory

/-! ## The fields of the registers -/

/-- The function of one of the pins PA8 to PA15. -/
def functionField (paCfg1 : BitVec 32) (pin : Nat) : BitVec 3 :=
  field paCfg1 4 3 (pin - 8)

/-- The pull of one of the pins PA0 to PA15. -/
def pullField (paPull0 : BitVec 32) (pin : Nat) : BitVec 2 :=
  field paPull0 2 2 pin

/-- The interrupt trigger of one of the pins PA0 to PA7. -/
def triggerField (paEintCfg0 : BitVec 32) (pin : Nat) : BitVec 4 :=
  field paEintCfg0 4 4 pin

def outputPins : List Nat := [8, 9, 10]

def buttonPin : Nat := 7

/-- The configuration that a load is to leave, with the fields of all other
pins as they were. -/
structure Configured (earlier later : PinRegisters) : Prop where
  outputs : ∀ pin, pin ∈ outputPins →
    functionField later.paCfg1 pin = 0b001#3
  pulledDown : ∀ pin, pin ∈ outputPins →
    pullField later.paPull0 pin = 0b10#2
  pulledUp : pullField later.paPull0 buttonPin = 0b01#2
  fallingEdge : triggerField later.paEintCfg0 buttonPin = 1#4
  enabled : later.paEintCtl.getLsbD buttonPin = true
  otherFunctions : ∀ pin, 8 ≤ pin → pin ≤ 15 → pin ∉ outputPins →
    functionField later.paCfg1 pin = functionField earlier.paCfg1 pin
  otherPulls : ∀ pin, pin ≤ 15 → pin ∉ buttonPin :: outputPins →
    pullField later.paPull0 pin = pullField earlier.paPull0 pin
  otherTriggers : ∀ pin, pin ≤ 7 → pin ≠ buttonPin →
    triggerField later.paEintCfg0 pin = triggerField earlier.paEintCfg0 pin
  otherEnables : ∀ pin, pin ≠ buttonPin →
    later.paEintCtl.getLsbD pin = earlier.paEintCtl.getLsbD pin

/-- The bits that the masks leave as they are are right already. -/
structure Prepared (pins : PinRegisters) : Prop where
  outputBits : ∀ pin, pin ∈ outputPins →
    pins.paCfg1.getLsbD (4 * (pin - 8)) = true
  pullBit : pins.paPull0.getLsbD 15 = false
  triggerBits : ∀ bit, 29 ≤ bit → bit ≤ 31 →
    pins.paEintCfg0.getLsbD bit = false

/-! ## What the masks do to a field -/

section Masks

variable (pins : PinRegisters)

theorem functionField_setUpPins (pin : Nat) :
    functionField (setUpPins pins).paCfg1 pin =
      functionField pins.paCfg1 pin &&&
        functionField 0xFFFFF111#32 pin :=
  field_and _ _ _ _ _

theorem pullField_setUpPins (pin : Nat) :
    pullField (setUpPins pins).paPull0 pin =
      pullField pins.paPull0 pin &&& pullField 0xFFC0FFFF#32 pin |||
        pullField (0xA9#32 <<< 14) pin := by
  rw [pullField, setUpPins]
  dsimp only
  rw [field_or, field_and]
  rfl

theorem triggerField_setUpPins (pin : Nat) :
    triggerField (setUpPins pins).paEintCfg0 pin =
      triggerField pins.paEintCfg0 pin |||
        triggerField (1#32 <<< 28) pin :=
  field_or _ _ _ _ _

theorem enabled_setUpPins (pin : Nat) :
    (setUpPins pins).paEintCtl.getLsbD pin =
      if pin = buttonPin then true else pins.paEintCtl.getLsbD pin :=
  getLsbD_setBit pins.paEintCtl 7 pin (by decide)

/-- The AND mask keeps the lowest bit of an output's function. -/
theorem functionField_output_iff {pin : Nat} (isOutput : pin ∈ outputPins) :
    functionField (setUpPins pins).paCfg1 pin = 0b001#3 ↔
      pins.paCfg1.getLsbD (4 * (pin - 8)) = true := by
  have masks : ∀ pin, pin ∈ outputPins →
      functionField 0xFFFFF111#32 pin = 0b001#3 := by
    decide
  have lowest : ∀ function : BitVec 3,
      function &&& 0b001#3 = 0b001#3 ↔ function.getLsbD 0 = true := by
    decide
  rw [functionField_setUpPins, masks pin isOutput, lowest, functionField,
    getLsbD_field _ _ _ _ (by decide), Nat.add_zero]

theorem pullField_output {pin : Nat} (isOutput : pin ∈ outputPins) :
    pullField (setUpPins pins).paPull0 pin = 0b10#2 := by
  have cleared : ∀ pin, pin ∈ outputPins →
      pullField 0xFFC0FFFF#32 pin = 0b00#2 := by
    decide
  have written : ∀ pin, pin ∈ outputPins →
      pullField (0xA9#32 <<< 14) pin = 0b10#2 := by
    decide
  rw [pullField_setUpPins, cleared pin isOutput, written pin isOutput,
    BitVec.and_zero, BitVec.zero_or]

/-- The shifted constant sets one bit of the pull of PA7 and the other one
stays. -/
theorem pullField_button_iff :
    pullField (setUpPins pins).paPull0 buttonPin = 0b01#2 ↔
      pins.paPull0.getLsbD 15 = false := by
  have masks : pullField 0xFFC0FFFF#32 buttonPin = 0b11#2 ∧
      pullField (0xA9#32 <<< 14) buttonPin = 0b01#2 := by
    decide
  have highest : ∀ pull : BitVec 2,
      pull &&& 0b11#2 ||| 0b01#2 = 0b01#2 ↔ pull.getLsbD 1 = false := by
    decide
  rw [pullField_setUpPins, masks.1, masks.2, highest, pullField,
    getLsbD_field _ _ _ _ (by decide)]
  rfl

theorem triggerField_button_iff :
    triggerField (setUpPins pins).paEintCfg0 buttonPin = 1#4 ↔
      ∀ bit, 29 ≤ bit → bit ≤ 31 →
        pins.paEintCfg0.getLsbD bit = false := by
  have mask : triggerField (1#32 <<< 28) buttonPin = 1#4 := by
    decide
  have higher : ∀ trigger : BitVec 4,
      trigger ||| 1#4 = 1#4 ↔
        ∀ bit, bit < 4 → 1 ≤ bit → trigger.getLsbD bit = false := by
    decide
  rw [triggerField_setUpPins, mask, higher]
  constructor
  · intro clear bit atLeast atMost
    have inside : bit - 28 < 4 := by omega
    have isClear := clear (bit - 28) inside (by omega)
    rw [triggerField, getLsbD_field _ _ _ _ inside, buttonPin] at isClear
    rw [← isClear]
    congr 1
    omega
  · intro clear bit inside positive
    rw [triggerField, getLsbD_field _ _ _ _ inside]
    apply clear
    · rw [buttonPin]
      omega
    · rw [buttonPin]
      omega

end Masks

/-! ## A load -/

/-- Every load that comes to the registers makes the assignments to them. -/
theorem ebbcharInit_pins {module : Module} {answers : LoadAnswers}
    (registered : 0 ≤ answers.registerChrdev)
    (hasClass : 0 ≤ answers.classCreate)
    (hasDevice : 0 ≤ answers.deviceCreate) :
    (ebbcharInit module answers).1.pins = setUpPins module.pins := by
  simp only [ebbcharInit, if_neg (Int.not_lt.mpr registered),
    if_neg (Int.not_lt.mpr hasClass), if_neg (Int.not_lt.mpr hasDevice)]
  split <;> rfl

/-- For all values of the four registers, the load configures the pins exactly
when the bits that its masks leave are right before. -/
theorem ebbcharInit_configured_iff (module : Module) (answers : LoadAnswers)
    (registered : 0 ≤ answers.registerChrdev)
    (hasClass : 0 ≤ answers.classCreate)
    (hasDevice : 0 ≤ answers.deviceCreate) :
    Configured module.pins (ebbcharInit module answers).1.pins ↔
      Prepared module.pins := by
  rw [ebbcharInit_pins registered hasClass hasDevice]
  constructor
  · intro configured
    refine ⟨?_, ?_, ?_⟩
    · intro pin isOutput
      exact (functionField_output_iff _ isOutput).mp
        (configured.outputs pin isOutput)
    · exact (pullField_button_iff _).mp configured.pulledUp
    · exact (triggerField_button_iff _).mp configured.fallingEdge
  · intro prepared
    refine ⟨?_, ?_, ?_, ?_, ?_, ?_, ?_, ?_, ?_⟩
    · intro pin isOutput
      exact (functionField_output_iff _ isOutput).mpr
        (prepared.outputBits pin isOutput)
    · intro pin isOutput
      exact pullField_output _ isOutput
    · exact (pullField_button_iff _).mpr prepared.pullBit
    · exact (triggerField_button_iff _).mpr prepared.triggerBits
    · rw [enabled_setUpPins]
      rfl
    · intro pin atLeast atMost other
      have ones : ∀ pin, pin ≤ 15 → 8 ≤ pin → pin ∉ outputPins →
          functionField 0xFFFFF111#32 pin = BitVec.allOnes 3 := by
        decide
      exact field_and_of_ones _ _ _ _ _ (ones pin atMost atLeast other)
    · intro pin atMost other
      have ones : ∀ pin, pin ≤ 15 → pin ∉ buttonPin :: outputPins →
          pullField 0xFFC0FFFF#32 pin = BitVec.allOnes 2 := by
        decide
      have zeros : ∀ pin, pin ≤ 15 → pin ∉ buttonPin :: outputPins →
          pullField (0xA9#32 <<< 14) pin = 0#2 := by
        decide
      rw [pullField_setUpPins, ones pin atMost other,
        zeros pin atMost other, BitVec.and_allOnes, BitVec.or_zero]
    · intro pin atMost other
      have zeros : ∀ pin, pin ≤ 7 → pin ≠ buttonPin →
          triggerField (1#32 <<< 28) pin = 0#4 := by
        decide
      exact field_or_of_zeros _ _ _ _ _ (zeros pin atMost other)
    · intro pin other
      rw [enabled_setUpPins, if_neg other]

def granted : LoadAnswers where
  registerChrdev := 240
  classCreate := 0
  deviceCreate := 0
  requestIrq := 0

/-- PA8 to PA15 are inputs. -/
def inputPins : PinRegisters where
  paCfg1 := 0
  paPull0 := 0
  paEintCfg0 := 0
  paEintCtl := 0

/-- The values of the registers after a reset. -/
def resetPins : PinRegisters :=
  { inputPins with paCfg1 := 0x77777777 }

/-- A load leaves PA10 an input that was an input before. -/
theorem inputPins_stay_inputs :
    functionField
        (ebbcharInit (Module.initial 0 inputPins) granted).1.pins.paCfg1
        10 = 0b000#3 ∧
      ¬ ∀ module answers, 0 ≤ answers.registerChrdev →
        0 ≤ answers.classCreate → 0 ≤ answers.deviceCreate →
          Configured module.pins (ebbcharInit module answers).1.pins := by
  have isInput :
      functionField
        (ebbcharInit (Module.initial 0 inputPins) granted).1.pins.paCfg1
        10 = 0b000#3 := by
    decide
  refine ⟨isInput, ?_⟩
  intro always
  have configured := always (Module.initial 0 inputPins) granted
    (by decide) (by decide) (by decide)
  have isOutput := configured.outputs 10 (by decide)
  rw [isInput] at isOutput
  exact absurd isOutput (by decide)

theorem ebbcharInit_configured_iff_resetPins :
    Configured resetPins
      (ebbcharInit (Module.initial 0 resetPins) granted).1.pins := by
  have prepared : Prepared resetPins := by
    refine ⟨by decide, by decide, ?_⟩
    intro bit _ _
    exact BitVec.getLsbD_zero
  exact (ebbcharInit_configured_iff (Module.initial 0 resetPins) granted
    (by decide) (by decide) (by decide)).mpr prepared

end Esp32Source.Ebbchar
