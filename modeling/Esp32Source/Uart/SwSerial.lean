import Esp32Source.Memory.CString
import Esp32Source.Machine.History

/-!
# The software serial port

`sw_serial.h` receives bytes in an interrupt handler and keeps them in a ring
that one task reads.  The positions are `uint32_t`, and the results of the
functions are `int`; both are bit vectors here, with the sign read where the
source compares or returns an `int`.

The handler runs with interrupts disabled, so it is one step.  `sw_read` is
three: the test for an empty ring, the load of the byte, and the update of
`outPos`.  The pins and the bit times are left out; what the handler samples is
given with its run.
-/

namespace Esp32Source.Uart

open Memory Machine

/-- The members of `SwSerial` that the ring functions use. -/
structure SwSerial where
  buffSize : BitVec 32
  invert : Bool
  overflow : Bool
  inPos : BitVec 32
  outPos : BitVec 32
  buffer : List UInt8
  deriving DecidableEq, Repr

/-- `sw_new`: the results of the two `malloc` calls are given, the second with
the bytes that the block happens to hold. -/
def swNew (inverse : Bool) (buffSize : BitVec 32) (allocated : Bool)
    (buffer : Option (Buffer buffSize.toNat)) : Option SwSerial :=
  if allocated then
    match buffer with
    | some memory =>
        some { buffSize, invert := inverse, overflow := false, inPos := 0,
               outPos := 0, buffer := memory.cells }
    | none => none
  else none

/-! ## Accesses to the buffer -/

def loadByte (buffer : List UInt8) (position : BitVec 32) :
    Except Fault UInt8 :=
  match buffer[position.toNat]? with
  | some byte => .ok byte
  | none => .error .outOfBounds

def storeByte (buffer : List UInt8) (position : BitVec 32) (byte : UInt8) :
    Except Fault (List UInt8) :=
  if position.toNat < buffer.length then
    .ok (buffer.set position.toNat byte)
  else .error .outOfBounds

/-! ## Receiving -/

/-- The levels that one run of the handler samples. -/
structure Frame where
  start : Bool
  data : Fin 8 → Bool
  stop : Bool

/-- The byte shifted together from the eight data levels. -/
def sampledByte (data : Fin 8 → Bool) : UInt8 :=
  (List.ofFn data).foldl
    (fun received level =>
      let received := received >>> 1
      if level then received ||| 0x80 else received)
    0

/-- The position behind `inPos`; the `int` it is assigned to has the same
bits. -/
def nextPosition (self : SwSerial) (position : BitVec 32) : BitVec 32 :=
  (position + 1) % self.buffSize

def swRxHandler (self : SwSerial) (frame : Frame) :
    Except Fault SwSerial :=
  if frame.start = false then
    let received := sampledByte frame.data
    if frame.stop = true then
      let next := nextPosition self self.inPos
      if next ≠ self.outPos then do
        let byte := if self.invert then ~~~received else received
        let buffer ← storeByte self.buffer self.inPos byte
        return { self with buffer, inPos := next }
      else .ok { self with overflow := true }
    else .ok self
  else .ok self

/-! ## Reading -/

def swAny (self : SwSerial) : Int :=
  let avail := self.inPos - self.outPos
  if avail.toInt < 0 then (avail + self.buffSize).toInt else avail.toInt

def swFlush (self : SwSerial) : SwSerial :=
  { self with inPos := 0, outPos := 0, overflow := false }

def swOverflow (self : SwSerial) : Bool :=
  self.overflow

def swPeek (self : SwSerial) : Except Fault Int :=
  if self.inPos ≠ self.outPos then do
    let byte ← loadByte self.buffer self.outPos
    return byte.toNat
  else .ok (-1)

/-- Where the reader task stands in `sw_read`: not in it, in front of the load
of the byte, or with the byte loaded. -/
inductive Reader where
  | idle
  | loading
  | updating (ch : UInt8)
  deriving DecidableEq, Repr

structure Port where
  self : SwSerial
  reader : Reader
  deriving DecidableEq, Repr

/-- The functions that the reader task calls. -/
inductive ReaderCall where
  | read
  | peek
  | any
  | flush
  | overflow
  deriving DecidableEq, Repr

/-- A run of the handler, a call of the reader task, or the next step of the
`sw_read` that the task is in. -/
inductive PortEvent where
  | frame (frame : Frame)
  | call (call : ReaderCall)
  | proceed

/-- A call of the reader task, with its result.  `sw_read` only tests here
whether the ring is empty. -/
def Port.call (port : Port) : ReaderCall → Except Fault (Port × Option Int)
  | .read =>
      if port.self.inPos ≠ port.self.outPos then
        .ok ({ port with reader := .loading }, none)
      else .ok (port, some (-1))
  | .peek => do
      let result ← swPeek port.self
      return (port, some result)
  | .any => .ok (port, some (swAny port.self))
  | .flush => .ok ({ port with self := swFlush port.self }, none)
  | .overflow => .ok (port, some (if swOverflow port.self then 1 else 0))

/-- The rest of `sw_read`. -/
def Port.proceed (port : Port) : Except Fault (Port × Option Int) :=
  match port.reader with
  | .idle => .ok (port, none)
  | .loading => do
      let ch ← loadByte port.self.buffer port.self.outPos
      return ({ port with reader := .updating ch }, none)
  | .updating ch =>
      let outPos := nextPosition port.self port.self.outPos
      .ok ({ self := { port.self with outPos }, reader := .idle },
        some ch.toNat)

/-- One step.  The output is what a function returns to the reader task, which
makes no other call while it is in `sw_read`. -/
def Port.step (port : Port) : PortEvent → Except Fault (Port × Option Int)
  | .frame frame => do
      let self ← swRxHandler port.self frame
      return ({ port with self }, none)
  | .proceed => port.proceed
  | .call call =>
      if port.reader = .idle then port.call call else .ok (port, none)

def portAfter (self : SwSerial) (history : List PortEvent) :
    Except Fault Port :=
  after Port.step { self, reader := .idle } history

end Esp32Source.Uart
