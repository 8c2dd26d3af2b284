import Esp32Source.Ebbchar.Module

/-!
# The balance of loads and unloads

A loaded module owes the kernel the four resources of its load, an unloaded
one owes nothing.  The first three failure paths of `ebbchar_init` keep this.
The last one, behind a failed `request_irq`, returns without releasing
anything, and `ebbchar_exit` unregisters the class twice.
-/

namespace Esp32Source.Ebbchar

open Memory Machine

/-- What a load acquires, the latest first. -/
def Handles.resources (handles : Handles) : List (Instance Resource) :=
  [handles.irqLine, handles.ebbcharDevice, handles.ebbcharClass,
    handles.majorNumber]

/-- Loaded, the module owes the resources of its load; unloaded, nothing is
held and everything was released exactly once. -/
def Module.Balanced (module : Module) : Prop :=
  match module.loaded with
  | some handles => module.kernel.Owes handles.resources
  | none => module.kernel.Settled

def BalancedAfter (paDatReg : BitVec 32) (pins : PinRegisters)
    (history : List ModuleEvent) : Prop :=
  (moduleAfter paDatReg pins history).Balanced

/-- The first three calls of a load succeed and `request_irq` fails. -/
def LoadAnswers.FailsAtIrq (answers : LoadAnswers) : Prop :=
  0 ≤ answers.registerChrdev ∧ 0 ≤ answers.classCreate ∧
    0 ≤ answers.deviceCreate ∧ answers.requestIrq < 0

/-- The event is no load that runs and fails in `request_irq`, and no unload
that runs. -/
def Module.KeepsBalance (module : Module) : ModuleEvent → Prop
  | .load answers => module.loaded = none → ¬ answers.FailsAtIrq
  | .unload => module.loaded = none

def KeepsBalanceAfter (paDatReg : BitVec 32) (pins : PinRegisters)
    (front : List ModuleEvent) (event : ModuleEvent) : Prop :=
  (moduleAfter paDatReg pins front).KeepsBalance event

/-! ## A load -/

/-- Every path of a load keeps the balance but the one behind a failed
`request_irq`, which leaves a debt. -/
theorem ebbcharInit_balanced_iff {module : Module} (answers : LoadAnswers)
    (unloaded : module.loaded = none) (settled : module.kernel.Settled) :
    (ebbcharInit module answers).1.Balanced ↔ ¬ answers.FailsAtIrq := by
  have chrdev := settled.acquire .chrdev
  have deviceClass := chrdev.acquire .deviceClass
  have device := deviceClass.acquire .device
  have irq := device.acquire .irq
  rw [ebbcharInit]
  by_cases chrdevFails : answers.registerChrdev < 0
  · rw [if_pos chrdevFails]
    refine iff_of_true ?_ ?_
    · rw [Module.Balanced, unloaded]
      exact settled
    · intro fails
      exact absurd chrdevFails (Int.not_lt.mpr fails.1)
  rw [if_neg chrdevFails]
  dsimp only
  by_cases classFails : answers.classCreate < 0
  · rw [if_pos classFails]
    refine iff_of_true ?_ ?_
    · rw [Module.Balanced, unloaded]
      exact chrdev.release
    · intro fails
      exact absurd classFails (Int.not_lt.mpr fails.2.1)
  rw [if_neg classFails]
  by_cases deviceFails : answers.deviceCreate < 0
  · rw [if_pos deviceFails]
    refine iff_of_true ?_ ?_
    · rw [Module.Balanced, unloaded]
      exact deviceClass.release.release
    · intro fails
      exact absurd deviceFails (Int.not_lt.mpr fails.2.2.1)
  rw [if_neg deviceFails]
  by_cases irqFails : answers.requestIrq < 0
  · rw [if_pos irqFails]
    refine iff_of_false ?_ ?_
    · rw [Module.Balanced, unloaded]
      exact device.not_settled
    · intro keeps
      exact keeps ⟨Int.not_lt.mp chrdevFails, Int.not_lt.mp classFails,
        Int.not_lt.mp deviceFails, irqFails⟩
  · rw [if_neg irqFails]
    refine iff_of_true irq ?_
    intro fails
    exact irqFails fails.2.2.2

/-! ## An unload -/

/-- `ebbchar_exit` makes five releases for four resources. -/
theorem ebbcharExit_released (handles : Handles) (module : Module) :
    (ebbcharExit.foldl (exitCall handles) module).kernel.acquired =
        module.kernel.acquired ∧
      (ebbcharExit.foldl (exitCall handles) module).kernel.released.length =
        module.kernel.released.length + 5 :=
  ⟨rfl, rfl⟩

theorem ebbcharExit_not_settled {handles : Handles} {module : Module}
    (owes : module.kernel.Owes handles.resources) :
    ¬ (ebbcharExit.foldl (exitCall handles) module).kernel.Settled := by
  intro settled
  obtain ⟨acquired, released⟩ := ebbcharExit_released handles module
  have before := owes.length_eq
  have after := settled.length_eq
  have four : handles.resources.length = 4 := rfl
  rw [acquired, released] at after
  omega

/-! ## Runs -/

theorem Module.step_balanced_iff {module : Module}
    (balanced : module.Balanced) (event : ModuleEvent) :
    (module.step event).1.Balanced ↔ module.KeepsBalance event := by
  cases loaded : module.loaded with
  | none =>
      rw [Module.Balanced, loaded] at balanced
      cases event with
      | load answers =>
          rw [Module.step, loaded, Module.KeepsBalance, loaded]
          dsimp only
          have started : (ebbcharInit
              { module with
                driver := Driver.initial module.driver.paDatReg,
                loaded := none }
              answers).1.Balanced ↔ ¬ answers.FailsAtIrq :=
            ebbcharInit_balanced_iff answers rfl balanced
          rw [started]
          exact ⟨fun keeps _ => keeps, fun keeps => keeps rfl⟩
      | unload =>
          rw [Module.step, loaded, Module.KeepsBalance]
          refine iff_of_true ?_ loaded
          rw [Module.Balanced, loaded]
          exact balanced
  | some handles =>
      have owes : module.kernel.Owes handles.resources := by
        rw [Module.Balanced, loaded] at balanced
        exact balanced
      cases event with
      | load answers =>
          rw [Module.step, loaded, Module.KeepsBalance, loaded]
          refine iff_of_true balanced ?_
          intro isNone
          cases isNone
      | unload =>
          rw [Module.step, loaded, Module.KeepsBalance, loaded]
          refine iff_of_false ?_ (Option.some_ne_none handles)
          exact ebbcharExit_not_settled owes

/-- In every run of load attempts and unloads, whatever the kernel answers,
the resources are balanced in every state exactly when no load fails in
`request_irq` and no loaded module is unloaded. -/
theorem resources_balanced_iff (paDatReg : BitVec 32) (pins : PinRegisters)
    (history : List ModuleEvent) :
    AtEveryState (BalancedAfter paDatReg pins) history ↔
      AtEveryStep (KeepsBalanceAfter paDatReg pins) history := by
  refine atEveryState_iff_atEveryStep (fun _ => True) ?_ ?_
    (fun _ _ => trivial)
  · exact Ledger.settled_empty
  · intro front event _ _ balanced
    rw [BalancedAfter, moduleAfter, final_concat]
    exact Module.step_balanced_iff balanced.last event

/-- A load that succeeds, and its unload. -/
def loadAndUnload : List ModuleEvent :=
  [.load { registerChrdev := 240, classCreate := 0, deviceCreate := 0,
           requestIrq := 0 },
    .unload]

/-- The unload releases the class twice. -/
theorem unload_releases_class_twice :
    (moduleAfter 0 ⟨0, 0, 0, 0⟩ loadAndUnload).loaded = none ∧
      (moduleAfter 0 ⟨0, 0, 0, 0⟩ loadAndUnload).kernel.released.count
        ⟨.deviceClass, 1⟩ = 2 ∧
      ¬ ∀ paDatReg pins history,
        AtEveryState (BalancedAfter paDatReg pins) history := by
  refine ⟨rfl, rfl, ?_⟩
  intro always
  have settled : (moduleAfter 0 ⟨0, 0, 0, 0⟩ loadAndUnload).kernel.Settled :=
    (always 0 ⟨0, 0, 0, 0⟩ loadAndUnload).last
  have sameLength := settled.length_eq
  revert sameLength
  decide

end Esp32Source.Ebbchar
