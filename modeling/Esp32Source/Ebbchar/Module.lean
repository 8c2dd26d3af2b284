import Esp32Source.Ebbchar.Driver
import Esp32Source.Machine.Ledger

/-!
# Loading and unloading the module

`ebbchar_init` acquires four resources of the kernel, one after the other, and
sets up the pin registers in between.  `ebbchar_exit` is the list of its calls
here, so that other activities can come between two of them.

The variables of a module exist while it is loaded, so that a failed load
leaves none of them.
-/

namespace Esp32Source.Ebbchar

open Memory Machine

/-- The registers that `ebbchar_init` sets up, beside `PA_DAT`. -/
structure PinRegisters where
  paCfg1 : BitVec 32
  paPull0 : BitVec 32
  paEintCfg0 : BitVec 32
  paEintCtl : BitVec 32
  deriving DecidableEq, Repr

/-- What the kernel gives to the module. -/
inductive Resource where
  | chrdev
  | deviceClass
  | device
  | irq
  deriving DecidableEq, Repr

/-- The variables that name the resources of a loaded module. -/
structure Handles where
  majorNumber : Instance Resource
  ebbcharClass : Instance Resource
  ebbcharDevice : Instance Resource
  irqLine : Instance Resource
  deriving DecidableEq, Repr

/-- The module and what is around it: its variables, the pin registers, the
resources, and the handles while it is loaded. -/
structure Module where
  driver : Driver
  pins : PinRegisters
  kernel : Ledger Resource
  loaded : Option Handles
  deriving DecidableEq, Repr

/-- The results of the four calls that can fail, negative for an error. -/
structure LoadAnswers where
  registerChrdev : Int
  classCreate : Int
  deviceCreate : Int
  requestIrq : Int
  deriving DecidableEq, Repr

/-- The assignments to the pin registers. -/
def setUpPins (pins : PinRegisters) : PinRegisters :=
  let paCfg1 := pins.paCfg1 &&& 0xFFFFF111#32
  let paPull0 := pins.paPull0 &&& 0xFFC0FFFF#32
  let paPull0 := paPull0 ||| (0xA9#32 <<< 14)
  let paEintCfg0 := pins.paEintCfg0 ||| (1#32 <<< 28)
  let paEintCtl := pins.paEintCtl ||| (1#32 <<< 7)
  { paCfg1, paPull0, paEintCfg0, paEintCtl }

/-- The three LEDs are switched on one after the other. -/
def switchOn (driver : Driver) : Driver :=
  let paDatReg := driver.paDatReg ||| 0x00000100#32
  let paDatReg := paDatReg ||| 0x00000200#32
  let paDatReg := paDatReg ||| 0x00000400#32
  { driver with paDatReg }

def ebbcharInit (module : Module) (answers : LoadAnswers) : Module × Int :=
  if answers.registerChrdev < 0 then (module, answers.registerChrdev)
  else
    let (kernel, majorNumber) := module.kernel.acquire .chrdev
    if answers.classCreate < 0 then
      ({ module with kernel := kernel.release majorNumber },
        answers.classCreate)
    else
      let (kernel, ebbcharClass) := kernel.acquire .deviceClass
      if answers.deviceCreate < 0 then
        ({ module with
            kernel := (kernel.release ebbcharClass).release majorNumber },
          answers.deviceCreate)
      else
        let (kernel, ebbcharDevice) := kernel.acquire .device
        let pins := setUpPins module.pins
        let driver := switchOn module.driver
        if answers.requestIrq < 0 then
          ({ module with driver, pins, kernel }, answers.requestIrq)
        else
          let (kernel, irqLine) := kernel.acquire .irq
          ({ driver, pins, kernel,
             loaded := some
              { majorNumber, ebbcharClass, ebbcharDevice, irqLine } },
            0)

/-- The calls of `ebbchar_exit`. -/
inductive ExitCall where
  | deviceDestroy
  | classUnregister
  | classDestroy
  | unregisterChrdev
  | clearPaDat
  | freeIrq
  deriving DecidableEq, Repr

def ebbcharExit : List ExitCall :=
  [.deviceDestroy, .classUnregister, .classDestroy, .unregisterChrdev,
    .clearPaDat, .freeIrq]

/-- One of these calls.  `class_destroy` unregisters the class once more. -/
def exitCall (handles : Handles) (module : Module) : ExitCall → Module
  | .deviceDestroy =>
      { module with kernel := module.kernel.release handles.ebbcharDevice }
  | .classUnregister =>
      { module with kernel := module.kernel.release handles.ebbcharClass }
  | .classDestroy =>
      { module with kernel := module.kernel.release handles.ebbcharClass }
  | .unregisterChrdev =>
      { module with kernel := module.kernel.release handles.majorNumber }
  | .clearPaDat =>
      { module with
        driver := { module.driver with
          paDatReg := module.driver.paDatReg &&& 0x00000000#32 } }
  | .freeIrq =>
      { module with kernel := module.kernel.release handles.irqLine }

/-! ## Load attempts and unloads -/

inductive ModuleEvent where
  | load (answers : LoadAnswers)
  | unload
  deriving DecidableEq, Repr

/-- `-EEXIST` and `-ENOENT`: the kernel refuses to load a module twice, and to
unload one that is not loaded. -/
def negativeEexist : Int := -17
def negativeEnoent : Int := -2

/-- The kernel's part: a load starts from the initial values of the module's
variables, an unload runs `ebbchar_exit` and drops the module. -/
def Module.step (module : Module) : ModuleEvent → Module × Int
  | .load answers =>
      match module.loaded with
      | some _ => (module, negativeEexist)
      | none =>
          ebbcharInit
            { module with
              driver := Driver.initial module.driver.paDatReg }
            answers
  | .unload =>
      match module.loaded with
      | none => (module, negativeEnoent)
      | some handles =>
          ({ ebbcharExit.foldl (exitCall handles) module with
              loaded := none },
            0)

/-- Before the first load, with any values in the registers. -/
def Module.initial (paDatReg : BitVec 32) (pins : PinRegisters) :
    Module where
  driver := Driver.initial paDatReg
  pins
  kernel := Ledger.empty
  loaded := none

def moduleAfter (paDatReg : BitVec 32) (pins : PinRegisters)
    (history : List ModuleEvent) : Module :=
  final Module.step (Module.initial paDatReg pins) history

end Esp32Source.Ebbchar
