import Esp32Source.Memory.CString
import Esp32Source.Memory.Register
import Esp32Source.Machine.History

/-!
# The `ebbchar` character driver

The state is the one the file operations share: the static message buffer,
the length that the last write measured, the open counter and the GPIO data
register.  The operations are those of `simpleDriver.c`.

A user buffer is given by its bytes, so its length is the `len` argument of
the call.  `uncopied` is what `copy_from_user` or `copy_to_user` returns: the
number of bytes at the end of the request that could not be copied.
-/

namespace Esp32Source.Ebbchar

open Memory Machine

structure Driver where
  message : Buffer 256
  sizeOfMessage : Nat
  numberOpens : Nat
  paDatReg : BitVec 32
  deriving DecidableEq, Repr

/-- The driver as the module's static initialisers leave it, with some value
in the data register. -/
def Driver.initial (paDatReg : BitVec 32) : Driver where
  message := Buffer.zero 256
  sizeOfMessage := 0
  numberOpens := 0
  paDatReg := paDatReg

/-- What a file operation hands back: its return value and the bytes it
copied to the user's buffer. -/
structure Reply where
  result : Int
  userBytes : List UInt8 := []
  deriving DecidableEq, Repr

/-- The string that commands the LED to a level. -/
def command (level : Bool) : List UInt8 :=
  if level then ascii "1\n" else ascii "0\n"

/-- `PA_DAT_REG |= (1 << 10)` -/
def turnOn (paDatReg : BitVec 32) : BitVec 32 :=
  paDatReg ||| (1#32 <<< 10)

/-- `PA_DAT_REG &= (~(1 << 10))` -/
def turnOff (paDatReg : BitVec 32) : BitVec 32 :=
  paDatReg &&& ~~~(1#32 <<< 10)

/-- `copy_from_user(message, buffer, len)`: the bytes that could not be copied
are filled with zeros. -/
def copyFromUser (message : Buffer 256) (buffer : List UInt8)
    (uncopied : Nat) : Except Fault (Buffer 256) :=
  let copied := buffer.take (buffer.length - uncopied)
  message.store 0
    (copied ++ List.replicate (buffer.length - copied.length) 0)

/-- The data register after the message was compared with the commands. -/
def applyCommand (message : Buffer 256) (paDatReg : BitVec 32) : BitVec 32 :=
  if cText message.cells = command true then turnOn paDatReg
  else if cText message.cells = command false then turnOff paDatReg
  else paDatReg

def devWrite (driver : Driver) (buffer : List UInt8) (uncopied : Nat) :
    Except Fault (Driver × Reply) := do
  let message ← copyFromUser driver.message buffer uncopied
  let rsult : Int := uncopied
  if rsult < 0 then
    return ({ driver with message }, { result := 1 })
  else
    let sizeOfMessage ← strlen message 0
    let paDatReg := applyCommand message driver.paDatReg
    return ({ driver with message, sizeOfMessage, paDatReg },
      { result := buffer.length })

/-- `-EFAULT` -/
def negativeEfault : Int := -14

/-- The request length `len` is not read. -/
def devRead (driver : Driver) (_len uncopied : Nat) : Reply :=
  let userBytes :=
    driver.message.window 0 (driver.sizeOfMessage - uncopied)
  if uncopied = 0 then
    { result := driver.sizeOfMessage, userBytes }
  else
    { result := negativeEfault, userBytes }

def devOpen (driver : Driver) : Driver × Reply :=
  ({ driver with numberOpens := driver.numberOpens + 1 }, { result := 0 })

def devRelease : Reply :=
  { result := 0 }

/-- The bottom half of the button interrupt. -/
def workQueueFunc (driver : Driver) : Driver :=
  let status : BitVec 32 :=
    if (driver.paDatReg >>> 10) &&& 1#32 = 0#32 then 1#32 else 0#32
  let cleared := driver.paDatReg &&& ~~~(1#32 <<< 10)
  { driver with paDatReg := cleared ||| (status <<< 10) }

/-- One entry into the driver. -/
inductive Call where
  | open
  | release
  | read (len uncopied : Nat)
  | write (buffer : List UInt8) (uncopied : Nat)
  | work
  deriving DecidableEq, Repr

def handle (driver : Driver) : Call → Except Fault (Driver × Reply)
  | .open => .ok (devOpen driver)
  | .release => .ok (driver, devRelease)
  | .read len uncopied => .ok (driver, devRead driver len uncopied)
  | .write buffer uncopied => devWrite driver buffer uncopied
  | .work => .ok (workQueueFunc driver, { result := 0 })

/-- The driver after a history of calls. -/
def driverAfter (paDatReg : BitVec 32) (history : List Call) :
    Except Fault Driver :=
  after handle (Driver.initial paDatReg) history

/-! ## Writes of a text -/

/-- A write of 1 to 255 bytes without NUL that was copied completely; every
other call is allowed. -/
def Call.WellFormed : Call → Prop
  | .write buffer uncopied =>
      1 ≤ buffer.length ∧ buffer.length ≤ 255 ∧ NulFree buffer ∧
        uncopied = 0
  | _ => True

instance (call : Call) : Decidable call.WellFormed :=
  match call with
  | .write _ _ => inferInstanceAs (Decidable (_ ∧ _ ∧ _ ∧ _))
  | .open | .release | .read _ _ | .work => .isTrue trivial

/-- The text a call writes. -/
def Call.payload : Call → Option (List UInt8)
  | .write buffer _ => some buffer
  | _ => none

/-- The texts a history writes, the oldest first. -/
def payloads (history : List Call) : List (List UInt8) :=
  history.filterMap Call.payload

/-- The message buffer holds `text` and zeros behind it, and its length was
measured. -/
structure Holds (text : List UInt8) (driver : Driver) : Prop where
  padded : ZeroPadded text driver.message.cells
  free : NulFree text
  short : text.length ≤ 255
  size : driver.sizeOfMessage = text.length

theorem Holds.cText_eq {text : List UInt8} {driver : Driver}
    (holds : Holds text driver) : cText driver.message.cells = text :=
  holds.padded.cText_eq holds.free

/-- Only the message and its length decide what the buffer holds. -/
theorem Holds.of_same {text : List UInt8} {driver next : Driver}
    (holds : Holds text driver)
    (sameMessage : next.message = driver.message)
    (sameSize : next.sizeOfMessage = driver.sizeOfMessage) :
    Holds text next where
  padded := by rw [sameMessage]; exact holds.padded
  free := holds.free
  short := holds.short
  size := by rw [sameSize]; exact holds.size

theorem holds_initial (paDatReg : BitVec 32) :
    Holds [] (Driver.initial paDatReg) where
  padded := zeroPadded_replicate 256
  free := nulFree_nil
  short := by simp
  size := rfl

theorem nulFree_overlay {new old : List UInt8}
    (newFree : NulFree new) (oldFree : NulFree old) :
    NulFree (overlay new old) :=
  newFree.append fun byte member => oldFree byte (List.mem_of_mem_drop member)

/-- A write copies its text over the text that the buffer held: the bytes of a
longer text stay behind it. -/
theorem devWrite_holds {text buffer : List UInt8} {driver : Driver}
    (holds : Holds text driver)
    (short : buffer.length ≤ 255) (free : NulFree buffer) :
    ∃ next,
      devWrite driver buffer 0 = .ok (next, { result := buffer.length }) ∧
        Holds (overlay buffer text) next ∧
        next.paDatReg = applyCommand next.message driver.paDatReg := by
  have textShort := holds.short
  obtain ⟨message, stored, cells⟩ :=
    driver.message.store_of_fits 0 buffer (by omega)
  rw [patch_zero] at cells
  have padded : ZeroPadded (overlay buffer text) message.cells := by
    rw [cells]
    exact holds.padded.overlay (by rw [driver.message.length_cells]; omega)
  have overlayFree : NulFree (overlay buffer text) :=
    nulFree_overlay free holds.free
  have overlayShort : (overlay buffer text).length ≤ 255 := by
    rw [length_overlay]
    omega
  have measured : strlen message 0 = .ok (overlay buffer text).length :=
    strlen_of_zeroPadded padded overlayFree (by omega)
  have copied : copyFromUser driver.message buffer 0 = .ok message := by
    simpa [copyFromUser] using stored
  refine ⟨{ driver with
      message
      sizeOfMessage := (overlay buffer text).length
      paDatReg := applyCommand message driver.paDatReg }, ?_, ?_, rfl⟩
  · unfold devWrite
    rw [copied]
    simp only [bind, Except.bind, measured]
    rfl
  · exact ⟨padded, overlayFree, overlayShort, rfl⟩

/-- A call that writes no text keeps the message and its length. -/
theorem handle_keeps_message (driver : Driver) {call : Call}
    (noText : call.payload = none) :
    ∃ next reply,
      handle driver call = .ok (next, reply) ∧
        next.message = driver.message ∧
        next.sizeOfMessage = driver.sizeOfMessage := by
  cases call with
  | write buffer uncopied =>
      cases noText
  | «open» =>
      exact ⟨_, _, rfl, rfl, rfl⟩
  | release =>
      exact ⟨_, _, rfl, rfl, rfl⟩
  | read len uncopied =>
      exact ⟨_, _, rfl, rfl, rfl⟩
  | work =>
      exact ⟨_, _, rfl, rfl, rfl⟩

theorem payloads_concat (history : List Call) (call : Call) :
    payloads (history ++ [call]) =
      payloads history ++ call.payload.toList := by
  unfold payloads
  rw [List.filterMap_append]
  cases text : call.payload <;> simp [text]

/-- The buffer holds the overlay of all texts written so far. -/
theorem driverAfter_holds
    (paDatReg : BitVec 32) {history : List Call}
    (wellFormed : ∀ call, call ∈ history → call.WellFormed) :
    ∃ driver,
      driverAfter paDatReg history = .ok driver ∧
        Holds (overlayAll [] (payloads history)) driver := by
  refine after_total
    (fun history driver =>
      Holds (overlayAll [] (payloads history)) driver)
    Call.WellFormed (holds_initial paDatReg) ?_ wellFormed
  intro history call driver holds allowed
  rw [payloads_concat]
  cases text : call.payload with
  | none =>
      obtain ⟨next, reply, handled, sameMessage, sameSize⟩ :=
        handle_keeps_message driver text
      refine ⟨next, reply, handled, ?_⟩
      simpa using holds.of_same sameMessage sameSize
  | some payload =>
      cases call with
      | write buffer uncopied =>
          cases text
          obtain ⟨_, short, free, rfl⟩ := allowed
          obtain ⟨next, written, nextHolds, _⟩ :=
            devWrite_holds holds short free
          exact ⟨next, _, written, by simpa using nextHolds⟩
      | _ =>
          cases text

end Esp32Source.Ebbchar
