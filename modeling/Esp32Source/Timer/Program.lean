import Esp32Source.Machine.History
import Esp32Source.Memory.Region
import Esp32Source.Memory.Word
import Esp32Source.Timer.Queue

/-!
# The two timer programs

In `test_timer_group_example_main.c` and `gptimer_example_main.c` the callback
of a timer sends the count that it reads to a queue of ten items, from which
`app_main` receives and prints.  Both are straight lists of calls.  The driver
runs the callback between any two of them, from its registration until it was
removed.

The size of an item is that of `QueueHandle_t` in the first program, half of
the count, and that of the count in the second.
-/

namespace Esp32Source.Timer

open Memory Machine

/-! ## The programs -/

inductive GpioMode where
  | input
  | output
  deriving DecidableEq, Repr

inductive GpioPull where
  | pullupOnly
  | pulldownOnly
  deriving DecidableEq, Repr

/-- `timer_config_t` -/
structure TimerConfig where
  counterEn : Bool
  alarmEn : Bool
  countsUp : Bool
  divider : Nat
  autoReload : Bool
  deriving DecidableEq, Repr

/-- `gptimer_config_t` -/
structure GptimerConfig where
  countsUp : Bool
  resolutionHz : Nat
  intrShared : Bool
  deriving DecidableEq, Repr

/-- `gptimer_alarm_config_t` -/
structure GptimerAlarmConfig where
  alarmCount : Nat
  reloadCount : Nat
  autoReloadOnAlarm : Bool
  deriving DecidableEq, Repr

/-- The calls of the drivers, with what they are given beside the timer. -/
inductive DriverCall where
  | gpioPadSelectGpio (pin : Nat)
  | gpioSetDirection (pin : Nat) (mode : GpioMode)
  | gpioSetPullMode (pin : Nat) (pull : GpioPull)
  | gpioSetLevel (pin level : Nat)
  | timerInit (config : TimerConfig)
  | timerSetCounterValue (value : Nat)
  | timerSetAlarmValue (value : Nat)
  | timerEnableIntr
  | timerIsrCallbackAdd
  | timerStart
  | timerPause
  | timerSetAutoReload (reload : Bool)
  | timerIsrCallbackRemove
  | timerDeinit
  | gptimerNewTimer (config : GptimerConfig)
  | gptimerSetRawCount (value : Nat)
  | gptimerSetAlarmAction (config : GptimerAlarmConfig)
  | gptimerRegisterEventCallbacks
  | gptimerEnable
  | gptimerStart
  deriving DecidableEq, Repr

/-- Whether the callback is registered behind a call that succeeds. -/
def DriverCall.registers : DriverCall → Bool → Bool
  | .timerIsrCallbackAdd, _ => true
  | .gptimerRegisterEventCallbacks, _ => true
  | .timerIsrCallbackRemove, _ => false
  | _, registered => registered

inductive QueueWait where
  | portMaxDelay
  | milliseconds (count : Nat)
  deriving DecidableEq, Repr

/-- A call of `app_main`.  The result of a `driver` call is given to
`ESP_ERROR_CHECK`, or ignored. -/
inductive Statement where
  | queueCreate (length itemSize : Nat)
  | driver (call : DriverCall) (checked : Bool)
  | queueReceive (wait : QueueWait)
  /-- The received count is printed. -/
  | printCount
  | queueDelete
  deriving DecidableEq, Repr

def TestTimer.config : TimerConfig where
  counterEn := false
  alarmEn := true
  countsUp := true
  divider := 80
  autoReload := true

/-- `app_main` of `test_timer_group_example_main.c`, up to its loop.  A
`QueueHandle_t` has four bytes. -/
def TestTimer.appMain : List Statement :=
  [.driver (.gpioPadSelectGpio 23) false,
    .driver (.gpioPadSelectGpio 22) false,
    .driver (.gpioSetDirection 23 .input) false,
    .driver (.gpioSetPullMode 23 .pullupOnly) false,
    .driver (.gpioSetDirection 22 .output) false,
    .driver (.gpioSetPullMode 22 .pulldownOnly) false,
    .driver (.gpioSetLevel 22 1) false,
    .queueCreate 10 4,
    .driver (.timerInit config) true,
    .driver (.timerSetCounterValue 0) false,
    .driver (.timerSetAlarmValue 500000) false,
    .driver .timerEnableIntr true,
    .driver .timerIsrCallbackAdd true,
    .driver .timerStart true,
    .queueReceive .portMaxDelay,
    .printCount,
    .driver .timerPause false,
    .driver (.timerSetAutoReload false) false,
    .driver .timerStart false,
    .queueReceive .portMaxDelay,
    .printCount,
    .driver .timerIsrCallbackRemove false,
    .driver .timerDeinit false,
    .queueDelete]

def Gptimer.config : GptimerConfig where
  countsUp := true
  resolutionHz := 1000 * 1000
  intrShared := false

def Gptimer.alarmConfig : GptimerAlarmConfig where
  alarmCount := 1000000
  reloadCount := 0
  autoReloadOnAlarm := true

/-- `app_main` of `gptimer_example_main.c` -/
def Gptimer.appMain : List Statement :=
  [.driver (.gpioPadSelectGpio 18) false,
    .driver (.gpioSetDirection 18 .output) false,
    .driver (.gpioSetPullMode 18 .pulldownOnly) false,
    .queueCreate 10 8,
    .driver (.gptimerNewTimer config) true,
    .driver (.gptimerSetRawCount 0) true,
    .driver (.gptimerSetAlarmAction alarmConfig) true,
    .driver .gptimerRegisterEventCallbacks true,
    .driver .gptimerEnable true,
    .driver .gptimerStart true,
    .queueReceive (.milliseconds 40000),
    .printCount]

/-! ## The callbacks -/

section Callbacks

variable {Queue : Type} (queues : Queues Queue)

/-- A send from the interrupt, with what it says about a woken task. -/
def sendFromISR (handle : QueueHandle Queue) (bytes : List UInt8) :
    Except Fault (QueueHandle Queue × Bool) := do
  let queue ← handle.use
  let (queue, highTaskAwoken) := queues.xQueueSendFromISR queue bytes
  return (.live queue, highTaskAwoken)

/-- `timer_isr_callback` of `test_timer_group_example_main.c`, with the answer
of `timer_group_get_counter_value_in_isr`. -/
def TestTimer.timerIsrCallback (args : QueueHandle Queue)
    (countVal : UInt64) : Except Fault (QueueHandle Queue × Bool) :=
  sendFromISR queues args (encode 8 countVal.toNat)

/-- `example_queue_element_t` -/
structure ExampleQueueElement where
  eventCount : UInt64
  deriving DecidableEq, Repr

def ExampleQueueElement.bytes (evt : ExampleQueueElement) : List UInt8 :=
  encode 8 evt.eventCount.toNat

/-- `timer_isr_callback` of `gptimer_example_main.c`, with the count of the
event. -/
def Gptimer.timerIsrCallback (userCtx : QueueHandle Queue)
    (countValue : UInt64) : Except Fault (QueueHandle Queue × Bool) :=
  sendFromISR queues userCtx
    (ExampleQueueElement.bytes { eventCount := countValue })

end Callbacks

/-! ## Runs -/

/-- The two functions of a program. -/
structure Program (Queue : Type) where
  appMain : List Statement
  timerIsrCallback :
    QueueHandle Queue → UInt64 → Except Fault (QueueHandle Queue × Bool)

def testTimer {Queue : Type} (queues : Queues Queue) : Program Queue where
  appMain := TestTimer.appMain
  timerIsrCallback := TestTimer.timerIsrCallback queues

def gptimer {Queue : Type} (queues : Queues Queue) : Program Queue where
  appMain := Gptimer.appMain
  timerIsrCallback := Gptimer.timerIsrCallback queues

/-- The task with its variables, and the counts that were read by the
callback, received and printed so far. -/
structure App (Queue : Type) where
  todo : List Statement
  aborted : Bool
  queue : QueueHandle Queue
  registered : Bool
  countVal : Buffer 8
  read : List UInt64
  received : List (List UInt8)
  printed : List Nat

/-- What the task meets: whether the driver's call succeeds, and whether the
time of a wait is over. -/
structure TaskAnswer where
  succeeds : Bool
  timesOut : Bool
  deriving DecidableEq, Repr

inductive AppEvent where
  /-- The driver runs the callback, if one is registered. -/
  | alarm (count : UInt64)
  | task (answer : TaskAnswer)

section Runs

variable {Queue : Type} (queues : Queues Queue)

def App.alarm (app : App Queue)
    (callback : QueueHandle Queue → UInt64 →
      Except Fault (QueueHandle Queue × Bool)) (count : UInt64) :
    Except Fault (App Queue × Option Bool) :=
  if app.registered && !app.aborted then do
    let (queue, highTaskAwoken) ← callback app.queue count
    return ({ app with queue, read := app.read ++ [count] },
      some highTaskAwoken)
  else .ok (app, none)

/-- `xQueueReceive` copies an item over the front of the variable.  While
there is none it waits, unless the time is over. -/
def App.receive (app : App Queue) (rest : List Statement) (wait : QueueWait)
    (timesOut : Bool) : Except Fault (App Queue) := do
  let queue ← app.queue.use
  match queues.xQueueReceive queue with
  | some (item, queue) =>
      let countVal ← app.countVal.store 0 item
      return { app with
        todo := rest, queue := .live queue, countVal,
        received := app.received ++ [item] }
  | none =>
      if wait = .portMaxDelay ∨ timesOut = false then return app
      else return { app with todo := rest }

def App.task (app : App Queue) (answer : TaskAnswer) :
    Except Fault (App Queue) :=
  if app.aborted then .ok app
  else
    match app.todo with
    | [] => .ok app
    | .queueCreate length itemSize :: rest =>
        match queues.xQueueCreate length itemSize with
        | some queue => .ok { app with todo := rest, queue := .live queue }
        | none => .ok { app with todo := rest, queue := .null }
    | .driver call checked :: rest =>
        if answer.succeeds then
          .ok { app with
            todo := rest, registered := call.registers app.registered }
        else if checked then .ok { app with aborted := true }
        else .ok { app with todo := rest }
    | .queueReceive wait :: rest =>
        app.receive queues rest wait answer.timesOut
    | .printCount :: rest =>
        .ok { app with
          todo := rest,
          printed := app.printed ++ [decode app.countVal.cells] }
    | .queueDelete :: rest => do
        let _ ← app.queue.use
        return { app with todo := rest, queue := .deleted }

def App.step (program : Program Queue) (app : App Queue) :
    AppEvent → Except Fault (App Queue × Option Bool)
  | .alarm count => app.alarm program.timerIsrCallback count
  | .task answer => do
      return (← app.task queues answer, none)

/-- The program in front of its first call, with what the variable holds. -/
def App.begin (program : Program Queue) (countVal : Buffer 8) :
    App Queue where
  todo := program.appMain
  aborted := false
  queue := .null
  registered := false
  countVal
  read := []
  received := []
  printed := []

def appAfter (program : Program Queue) (countVal : Buffer 8)
    (history : List AppEvent) : Except Fault (App Queue) :=
  after (App.step queues program) (App.begin program countVal) history

end Runs

end Esp32Source.Timer
