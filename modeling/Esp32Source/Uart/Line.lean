import Esp32Source.Memory.Register
import Esp32Source.Uart.ReceiveQueue

/-!
# The serial line

`sw_write` shifts a byte out from its lowest bit on, between a low start level
and a high stop level, and `sw_rx_handler` shifts the levels in from the top.
Both complement the byte if their port inverts, and neither complements the
start and stop levels.

Sampled once per bit, what one port writes is what the handler of the other
puts into its ring.  Other frames, and the reader that empties the ring
meanwhile, change nothing about the bytes and their order.
-/

namespace Esp32Source.Uart

open Memory Machine

/-! ## Writing -/

/-- What `sw_write` does to its pin. -/
inductive LineAction where
  | setLevel (level : Bool)
  | waitBitTime
  deriving DecidableEq, Repr

/-- The loop over the bits that are still to be written. -/
def writeBits : Nat → UInt8 → List LineAction
  | 0, _ => []
  | count + 1, byte =>
      .setLevel (byte &&& 1 ≠ 0) :: .waitBitTime ::
        writeBits count (byte >>> 1)

/-- `sw_write`: what happens on the line, and the result. -/
def swWrite (self : SwSerial) (byte : UInt8) : List LineAction × Int :=
  let byte := if self.invert then ~~~byte else byte
  -- the start bit is preceded by a pulse that triggers the interrupt
  ([.setLevel true, .setLevel false, .waitBitTime] ++ writeBits 8 byte ++
      [.setLevel true, .waitBitTime],
    1)

/-- The level of the line at each wait, from the level before on. -/
def heldLevels (level : Bool) : List LineAction → List Bool
  | [] => []
  | .setLevel next :: actions => heldLevels next actions
  | .waitBitTime :: actions => level :: heldLevels level actions

/-- The handler samples the start, the data and the stop level in turn; an
idle line is high. -/
def Frame.ofLevels (levels : List Bool) : Frame where
  start := levels.getD 0 true
  data bit := levels.getD (bit.val + 1) true
  stop := levels.getD 9 true

/-- The frame that is sampled while a byte is written. -/
def writtenFrame (self : SwSerial) (byte : UInt8) : Frame :=
  Frame.ofLevels (heldLevels true (swWrite self byte).1)

/-! ## Bits -/

/-- The bits of a byte, the lowest one first. -/
def lowestBits (count : Nat) (byte : UInt8) : List Bool :=
  (List.range count).map byte.toBitVec.getLsbD

theorem getElem?_lowestBits {count bit : Nat} (below : bit < count)
    (byte : UInt8) :
    (lowestBits count byte)[bit]? = some (byte.toBitVec.getLsbD bit) := by
  rw [lowestBits, List.getElem?_map, List.getElem?_range below,
    Option.map_some]

theorem getLsbD_half (byte : UInt8) (bit : Nat) :
    (byte >>> 1).toBitVec.getLsbD bit =
      byte.toBitVec.getLsbD (bit + 1) := by
  have shifted : (byte >>> 1).toBitVec = byte.toBitVec >>> 1 :=
    UInt8.toBitVec_shiftRight byte 1
  rw [shifted, BitVec.getLsbD_ushiftRight, Nat.add_comm]

theorem getLsbD_lowest (byte : UInt8) :
    byte.toBitVec.getLsbD 0 = decide (byte &&& 1 ≠ 0) := by
  have zeroIff := shiftRight_and_one_eq_zero_iff byte.toBitVec 0
  have masked : byte &&& 1 = 0 ↔ byte.toBitVec.getLsbD 0 = false := by
    rw [← zeroIff, ← UInt8.toBitVec_inj, UInt8.toBitVec_and]
    rfl
  by_cases isZero : byte &&& 1 = 0
  · rw [masked.mp isZero]
    simp [isZero]
  · have isSet := mt masked.mpr isZero
    rw [Bool.not_eq_false] at isSet
    simp [isSet, isZero]

theorem lowestBits_succ (count : Nat) (byte : UInt8) :
    lowestBits (count + 1) byte =
      decide (byte &&& 1 ≠ 0) :: lowestBits count (byte >>> 1) := by
  rw [lowestBits, lowestBits, List.range_succ_eq_map, List.map_cons,
    List.map_map, getLsbD_lowest]
  congr 1
  apply List.map_congr_left
  intro bit _
  exact (getLsbD_half byte bit).symm

theorem heldLevels_writeBits (count : Nat) (byte : UInt8) (level next : Bool)
    (actions : List LineAction) :
    heldLevels level (writeBits count byte ++ .setLevel next :: actions) =
      lowestBits count byte ++ heldLevels next actions := by
  induction count generalizing byte level with
  | zero =>
      rfl
  | succ count inductionHypothesis =>
      rw [lowestBits_succ, List.cons_append,
        ← inductionHypothesis (byte >>> 1) (decide (byte &&& 1 ≠ 0))]
      rfl

theorem getLsbD_top {bit : Nat} (below : bit < 8) :
    (0x80 : UInt8).toBitVec.getLsbD bit = decide (bit = 7) := by
  have each : ∀ bit : Fin 8,
      (0x80 : UInt8).toBitVec.getLsbD bit.val = decide (bit.val = 7) := by
    decide
  exact each ⟨bit, below⟩

/-- One sample is shifted in from the top. -/
theorem getLsbD_shiftIn (received : UInt8) (level : Bool) {bit : Nat}
    (below : bit < 8) :
    (if level then received >>> 1 ||| 0x80
      else received >>> 1).toBitVec.getLsbD bit =
        if bit = 7 then level else received.toBitVec.getLsbD (bit + 1) := by
  have shifted := getLsbD_half received bit
  cases level with
  | false =>
      rw [if_neg Bool.false_ne_true, shifted]
      by_cases isTop : bit = 7
      · rw [if_pos isTop]
        exact BitVec.getLsbD_of_ge _ _ (by omega)
      · rw [if_neg isTop]
  | true =>
      rw [if_pos rfl, UInt8.toBitVec_or, BitVec.getLsbD_or, shifted,
        getLsbD_top below]
      by_cases isTop : bit = 7 <;> simp [isTop]

/-- Samples shifted in one after the other push out what was there before. -/
theorem getLsbD_shiftAll {shift : UInt8 → Bool → UInt8}
    (shifts : ∀ received level bit, bit < 8 →
      (shift received level).toBitVec.getLsbD bit =
        if bit = 7 then level else received.toBitVec.getLsbD (bit + 1))
    (levels : List Bool) (received : UInt8) {bit : Nat} (below : bit < 8) :
    (levels.foldl shift received).toBitVec.getLsbD bit =
      if bit + levels.length < 8 then
        received.toBitVec.getLsbD (bit + levels.length)
      else levels.getD (bit + levels.length - 8) false := by
  induction levels using List.reverseRecOn generalizing bit with
  | nil =>
      rw [List.length_nil, Nat.add_zero, if_pos below]
      rfl
  | append_singleton levels level inductionHypothesis =>
      rw [List.foldl_append, List.foldl_cons, List.foldl_nil,
        shifts _ _ _ below, List.length_append, List.length_singleton]
      by_cases isTop : bit = 7
      · have last : bit + (levels.length + 1) - 8 = levels.length := by
          omega
        rw [if_pos isTop, if_neg (by omega), last]
        simp
      · rw [if_neg isTop, inductionHypothesis (by omega)]
        have same : bit + 1 + levels.length = bit + (levels.length + 1) := by
          omega
        rw [same]
        by_cases inside : bit + (levels.length + 1) < 8
        · rw [if_pos inside, if_pos inside]
        · rw [if_neg inside, if_neg inside, List.getD_eq_getElem?_getD,
            List.getD_eq_getElem?_getD, List.getElem?_append_left (by omega)]

/-- The byte that is sampled has the data levels as its bits. -/
theorem sampledByte_of_bits {data : Fin 8 → Bool} {byte : UInt8}
    (same : ∀ bit : Fin 8, data bit = byte.toBitVec.getLsbD bit.val) :
    sampledByte data = byte := by
  rw [← UInt8.toBitVec_inj]
  apply BitVec.eq_of_getLsbD_eq
  intro bit below
  rw [sampledByte, getLsbD_shiftAll
    (fun received level bit below => getLsbD_shiftIn received level below)
    _ _ below, List.length_ofFn, if_neg (by omega), Nat.add_sub_cancel,
    List.getD_eq_getElem?_getD, List.getElem?_ofFn, dif_pos below,
    Option.getD_some]
  exact same ⟨bit, below⟩

/-! ## The frame of a byte -/

/-- Between the start and the stop level stands the byte, complemented if the
port inverts. -/
theorem heldLevels_swWrite (self : SwSerial) (byte : UInt8) :
    heldLevels true (swWrite self byte).1 =
      false :: (lowestBits 8 (if self.invert then ~~~byte else byte) ++
        [true]) := by
  have behindStart := heldLevels_writeBits 8
    (if self.invert then ~~~byte else byte) false true [.waitBitTime]
  rw [swWrite]
  simp only [List.cons_append, List.nil_append, heldLevels, behindStart]

/-- A written byte is received, if both ports invert or both do not. -/
theorem writtenFrame_byte (self : SwSerial) (byte : UInt8) :
    (writtenFrame self byte).byte self.invert = some byte := by
  have levels := heldLevels_swWrite self byte
  have sampled : sampledByte (writtenFrame self byte).data =
      if self.invert then ~~~byte else byte := by
    apply sampledByte_of_bits
    intro bit
    rw [writtenFrame, levels]
    simp only [Frame.ofLevels, List.getD_cons_succ]
    rw [List.getD_eq_getElem?_getD, List.getElem?_append_left,
      getElem?_lowestBits bit.isLt, Option.getD_some]
    rw [lowestBits, List.length_map, List.length_range]
    exact bit.isLt
  have started : (writtenFrame self byte).start = false := by
    rw [writtenFrame, levels]
    rfl
  have stopped : (writtenFrame self byte).stop = true := by
    rw [writtenFrame, levels]
    rfl
  rw [Frame.byte, if_pos ⟨started, stopped⟩, sampled]
  cases self.invert with
  | false =>
      rfl
  | true =>
      simp

/-! ## Ill-formed frames -/

/-- The start level is high, or the stop level is low. -/
def Frame.IllFormed (frame : Frame) : Prop :=
  frame.start = true ∨ frame.stop = false

/-- An ill-formed frame changes nothing, whatever its data are. -/
theorem swRxHandler_of_illFormed {frame : Frame}
    (illFormed : frame.IllFormed) (self : SwSerial) :
    swRxHandler self frame = .ok self := by
  rw [swRxHandler]
  rcases illFormed with high | low
  · rw [high]
    exact if_neg Bool.noConfusion
  · split
    · rw [low]
      exact if_neg Bool.false_ne_true
    · rfl

/-! ## Two ports -/

/-- A byte that is written and sampled, another frame that is sampled, or a
call or a step of the reader task. -/
inductive LineEvent where
  | written (byte : UInt8)
  | noise (frame : Frame)
  | call (call : ReaderCall)
  | proceed

/-- The event at the receiving port. -/
def LineEvent.portEvent (sender : SwSerial) : LineEvent → PortEvent
  | .written byte => .frame (writtenFrame sender byte)
  | .noise frame => .frame frame
  | .call chosen => .call chosen
  | .proceed => .proceed

/-- The receiving port, and what its `sw_read` has returned so far behind its
last step. -/
structure Receiver where
  port : Port
  returned : List Int

def Receiver.step (sender : SwSerial) (receiver : Receiver)
    (event : LineEvent) : Except Fault (Receiver × Option Int) := do
  let (port, result) ← receiver.port.step (event.portEvent sender)
  let returned :=
    match event with
    | .proceed => receiver.returned ++ result.toList
    | _ => receiver.returned
  return ({ port, returned }, result)

def lineAfter (sender self : SwSerial) (history : List LineEvent) :
    Except Fault Receiver :=
  after (Receiver.step sender)
    { port := { self, reader := .idle }, returned := [] } history

def LineEvent.byte : LineEvent → Option UInt8
  | .written byte => some byte
  | _ => none

/-- The bytes that were written. -/
def writtenBytes (history : List LineEvent) : List UInt8 :=
  history.filterMap LineEvent.byte

theorem writtenBytes_concat (history : List LineEvent) (event : LineEvent) :
    writtenBytes (history ++ [event]) =
      writtenBytes history ++ event.byte.toList := by
  rw [writtenBytes, List.filterMap_append, writtenBytes]
  cases event <;> rfl

def LineEvent.isNoise : LineEvent → Bool
  | .noise _ => true
  | _ => false

/-- A byte that arrives finds room in the ring. -/
def FindsRoom (sender self : SwSerial) (front : List LineEvent)
    (event : LineEvent) : Prop :=
  ∀ byte receiver, event = .written byte →
    lineAfter sender self front = .ok receiver →
      nextPosition receiver.port.self receiver.port.self.inPos ≠
        receiver.port.self.outPos

/-- What the task gets from `sw_read`, wherever it stands in it: -1 if nothing
is unread when it calls, and otherwise, two steps later, the oldest unread
byte. -/
structure ReadsOldest (sender : SwSerial) (receiver : Receiver)
    (unread : List UInt8) : Prop where
  calls : receiver.port.reader = .idle →
    receiver.step sender (.call .read) =
      if unread = [] then .ok (receiver, some (-1))
      else
        .ok ({ receiver with
            port := { receiver.port with reader := .loading } }, none)
  loads : receiver.port.reader = .loading →
    ∃ byte rest, unread = byte :: rest ∧
      receiver.step sender .proceed =
        .ok ({ receiver with
            port := { receiver.port with reader := .updating byte } }, none)
  returns : ∀ byte, receiver.port.reader = .updating byte →
    ∃ rest next, unread = byte :: rest ∧
      receiver.step sender .proceed =
        .ok (next, some (byte.toNat : Int)) ∧
      next.port.reader = .idle ∧
      next.returned = receiver.returned ++ [(byte.toNat : Int)]

/-- A whole call of `sw_read`. -/
def wholeRead : List LineEvent :=
  [.call .read, .proceed, .proceed]

def wholeReads : Nat → List LineEvent
  | 0 => []
  | count + 1 => wholeReads count ++ wholeRead

/-- What was returned is the beginning of what was written, the rest is still
in the ring, and nothing was dropped.  Each further `sw_read` returns the next
byte, as long as there is one. -/
structure Delivers (sender self : SwSerial) (history : List LineEvent)
    (receiver : Receiver) : Prop where
  inOrder : ∃ read unread : List UInt8,
    writtenBytes history = read ++ unread ∧
      receiver.returned = read.map (fun byte => (byte.toNat : Int)) ∧
      (receiver.port.self.inPos = receiver.port.self.outPos ↔
        unread = []) ∧
      ReadsOldest sender receiver unread
  keepsAll : swOverflow receiver.port.self = false
  readsAll : ∀ count, ∃ last,
    lineAfter sender self (history ++ wholeReads count) = .ok last ∧
      last.returned =
        ((writtenBytes history).take
          (receiver.returned.length + count)).map
            (fun byte => (byte.toNat : Int))

/-! ## One event -/

/-- The ring holds a queue that accepted what was written, and from which was
taken what was returned. -/
structure Carries (buffSize : Nat) (invert : Bool) (bytes : List UInt8)
    (receiver : Receiver) (fifo : Fifo UInt8) (phase : Phase) : Prop where
  ringed : Ringed receiver.port.self buffSize invert
  holds : Holds receiver.port.self fifo
  reader : SameReader fifo.queue receiver.port.reader phase
  accepted : fifo.accepted = bytes
  taken : receiver.returned =
    fifo.taken.map (fun byte => (byte.toNat : Int))
  keepsAll : fifo.dropped = false

section Step

variable {buffSize : Nat} {bytes : List UInt8} {sender : SwSerial}
  {receiver : Receiver} {fifo : Fifo UInt8} {phase : Phase}

/-- The step is made, and the receiver goes on to carry the bytes. -/
def GoesOn (buffSize : Nat) (sender : SwSerial) (receiver : Receiver)
    (event : LineEvent) (bytes : List UInt8) : Prop :=
  ∃ next output fifo phase,
    receiver.step sender event = .ok (next, output) ∧
      Carries buffSize sender.invert bytes next fifo phase

theorem Receiver.step_of_port {event : LineEvent} {port : Port}
    {result : Option Int} (noProceed : event ≠ .proceed)
    (stepped :
      receiver.port.step (event.portEvent sender) = .ok (port, result)) :
    receiver.step sender event = .ok ({ receiver with port }, result) := by
  rw [Receiver.step, stepped]
  cases event with
  | proceed =>
      exact absurd rfl noProceed
  | written byte | noise frame | call chosen =>
      rfl

theorem Receiver.step_noise {frame : Frame} (illFormed : frame.IllFormed)
    (sender : SwSerial) (receiver : Receiver) :
    receiver.step sender (.noise frame) = .ok (receiver, none) := by
  apply Receiver.step_of_port LineEvent.noConfusion
  rw [LineEvent.portEvent, Port.step, swRxHandler_of_illFormed illFormed]
  rfl

theorem Carries.written
    (carries : Carries buffSize sender.invert bytes receiver fifo phase)
    (byte : UInt8)
    (room : nextPosition receiver.port.self receiver.port.self.inPos ≠
      receiver.port.self.outPos) :
    GoesOn buffSize sender receiver (.written byte) (bytes ++ [byte]) := by
  have notFull := mt (carries.holds.full_iff carries.ringed).mpr room
  obtain ⟨self, received, ringed, holds⟩ :=
    swRxHandler_receives carries.ringed carries.holds
      (writtenFrame sender byte)
  rw [writtenFrame_byte] at holds
  obtain ⟨accepted, taken⟩ := Fifo.accepted_receive notFull byte
  refine ⟨{ receiver with port := { receiver.port with self } }, none, _,
    phase, ?_, ringed, holds, carries.reader.receive _ _, ?_, ?_, ?_⟩
  · apply Receiver.step_of_port LineEvent.noConfusion
    rw [LineEvent.portEvent, Port.step, received]
    rfl
  · rw [accepted, carries.accepted]
  · rw [taken]
    exact carries.taken
  · rw [(Fifo.queue_receive notFull byte).2]
    exact carries.keepsAll

/-- A call that does not flush leaves the port, or finds a byte to read. -/
theorem Port.call_of_noFlush {port : Port} {call : ReaderCall}
    (holds : Holds port.self fifo) (noFlush : call ≠ .flush) :
    (∃ result, port.call call = .ok (port, result)) ∨
      (port.call call = .ok ({ port with reader := .loading }, none) ∧
        fifo.queue ≠ []) := by
  cases call with
  | flush =>
      exact absurd rfl noFlush
  | read =>
      by_cases isEmpty : port.self.inPos = port.self.outPos
      · exact Or.inl ⟨some (-1), if_neg (not_not_intro isEmpty)⟩
      · exact Or.inr ⟨if_pos isEmpty, mt holds.inPos_eq_iff.mpr isEmpty⟩
  | peek =>
      have peeks : swPeek port.self =
          .ok (ReceiveQueue.oldest ⟨fifo, .idle⟩) :=
        swPeek_returns holds
      refine Or.inl ⟨some (ReceiveQueue.oldest ⟨fifo, .idle⟩), ?_⟩
      rw [Port.call, peeks]
      rfl
  | any | overflow =>
      exact Or.inl ⟨_, rfl⟩

theorem Carries.call
    (carries : Carries buffSize sender.invert bytes receiver fifo phase)
    {call : ReaderCall} (noFlush : call ≠ .flush) :
    GoesOn buffSize sender receiver (.call call) bytes := by
  by_cases idle : receiver.port.reader = .idle
  · have stepped : receiver.port.step (.call call) =
        receiver.port.call call := if_pos idle
    rcases Port.call_of_noFlush carries.holds noFlush with
      ⟨result, stays⟩ | ⟨starts, nonempty⟩
    · exact ⟨receiver, result, fifo, phase,
        Receiver.step_of_port LineEvent.noConfusion (stepped.trans stays),
        carries⟩
    · exact ⟨{ receiver with
          port := { receiver.port with reader := .loading } }, none, fifo,
        .loading,
        Receiver.step_of_port LineEvent.noConfusion (stepped.trans starts),
        carries.ringed, carries.holds, nonempty, carries.accepted,
        carries.taken, carries.keepsAll⟩
  · exact ⟨receiver, none, fifo, phase,
      Receiver.step_of_port LineEvent.noConfusion (if_neg idle), carries⟩

theorem Receiver.step_proceed {port : Port} {result : Option Int}
    (proceeds : receiver.port.proceed = .ok (port, result)) :
    receiver.step sender .proceed =
      .ok ({ port, returned := receiver.returned ++ result.toList },
        result) := by
  rw [Receiver.step, LineEvent.portEvent, Port.step, proceeds]
  rfl

/-- Outside of `sw_read` there is no further step, -/
theorem Carries.proceed_of_idle
    (carries : Carries buffSize sender.invert bytes receiver fifo .idle) :
    receiver.step sender .proceed = .ok (receiver, none) := by
  rcases carries.reader.proceed carries.ringed carries.holds with
    ⟨_, stays⟩ | ⟨isLoading, _⟩ | ⟨isUpdating, _⟩
  · rw [Receiver.step_proceed stays, Option.toList_none, List.append_nil]
  · cases isLoading
  · cases isUpdating

/-- the first one loads the oldest byte, -/
theorem Carries.proceed_of_loading
    (carries : Carries buffSize sender.invert bytes receiver fifo .loading) :
    ∃ byte rest, fifo.queue = byte :: rest ∧
      receiver.step sender .proceed =
        .ok ({ receiver with
            port := { receiver.port with reader := .updating byte } },
          none) ∧
      Carries buffSize sender.invert bytes
        { receiver with
          port := { receiver.port with reader := .updating byte } }
        fifo .updating := by
  rcases carries.reader.proceed carries.ringed carries.holds with
    ⟨isIdle, _⟩ | ⟨_, byte, rest, queue, loads⟩ | ⟨isUpdating, _⟩
  · cases isIdle
  · refine ⟨byte, rest, queue, ?_, carries.ringed, carries.holds, ?_,
      carries.accepted, carries.taken, carries.keepsAll⟩
    · rw [Receiver.step_proceed loads, Option.toList_none, List.append_nil]
    · change fifo.queue.head? = some byte
      rw [queue, List.head?_cons]
  · cases isUpdating

/-- and the last one returns it and takes it out. -/
theorem Carries.proceed_of_updating
    (carries :
      Carries buffSize sender.invert bytes receiver fifo .updating) :
    ∃ byte rest next, fifo.queue = byte :: rest ∧
      receiver.port.reader = .updating byte ∧
      receiver.step sender .proceed =
        .ok (next, some (byte.toNat : Int)) ∧
      Carries buffSize sender.invert bytes next fifo.take.1 .idle := by
  rcases carries.reader.cases with ⟨_, isIdle⟩ | ⟨_, isLoading, _⟩ |
    ⟨loaded, isUpdating, _, isHead⟩
  · cases isIdle
  · cases isLoading
  rcases carries.reader.proceed carries.ringed carries.holds with
    ⟨isIdle, _⟩ | ⟨isLoading, _⟩ |
      ⟨_, byte, rest, self, queue, takes, ringed, holds⟩
  · cases isIdle
  · cases isLoading
  · rw [queue, List.head?_cons] at isHead
    cases isHead
    obtain ⟨taken, accepted⟩ := Fifo.taken_take queue
    refine ⟨loaded, rest, _, queue, isUpdating, Receiver.step_proceed takes,
      ringed, holds, trivial, ?_, ?_, ?_⟩
    · rw [accepted, carries.accepted]
    · rw [taken, List.map_append, ← carries.taken]
      rfl
    · rw [Fifo.dropped_take, carries.keepsAll]

theorem Carries.proceed
    (carries : Carries buffSize sender.invert bytes receiver fifo phase) :
    GoesOn buffSize sender receiver .proceed bytes := by
  cases phase with
  | idle =>
      exact ⟨receiver, none, fifo, .idle, carries.proceed_of_idle, carries⟩
  | loading =>
      obtain ⟨byte, _, _, stepped, later⟩ := carries.proceed_of_loading
      exact ⟨_, none, fifo, .updating, stepped, later⟩
  | updating =>
      obtain ⟨byte, _, next, _, _, stepped, later⟩ :=
        carries.proceed_of_updating
      exact ⟨next, _, fifo.take.1, .idle, stepped, later⟩

/-! ### Whole reads -/

/-- A call finds no byte, or begins to read one. -/
theorem Carries.callRead
    (carries : Carries buffSize sender.invert bytes receiver fifo .idle) :
    (fifo.queue = [] ∧
        receiver.step sender (.call .read) = .ok (receiver, some (-1))) ∨
      (fifo.queue ≠ [] ∧
        receiver.step sender (.call .read) =
          .ok ({ receiver with
              port := { receiver.port with reader := .loading } }, none) ∧
        Carries buffSize sender.invert bytes
          { receiver with
            port := { receiver.port with reader := .loading } }
          fifo .loading) := by
  have idle := carries.reader.idle_iff.mpr rfl
  have calls : receiver.port.step (.call .read) =
      receiver.port.call .read := if_pos idle
  by_cases isEmpty : fifo.queue = []
  · refine Or.inl ⟨isEmpty, Receiver.step_of_port LineEvent.noConfusion
      (calls.trans ?_)⟩
    exact if_neg (not_not_intro (carries.holds.inPos_eq_iff.mpr isEmpty))
  · refine Or.inr ⟨isEmpty, Receiver.step_of_port LineEvent.noConfusion
      (calls.trans ?_), carries.ringed, carries.holds, isEmpty,
      carries.accepted, carries.taken, carries.keepsAll⟩
    exact if_pos (mt carries.holds.inPos_eq_iff.mp isEmpty)

/-- In the middle of a read there is no call. -/
theorem Carries.callRead_of_busy
    (carries : Carries buffSize sender.invert bytes receiver fifo phase)
    (busy : phase ≠ .idle) :
    receiver.step sender (.call .read) = .ok (receiver, none) :=
  Receiver.step_of_port LineEvent.noConfusion
    (if_neg (mt carries.reader.idle_iff.mp busy))

theorem Carries.readsOldest
    (carries : Carries buffSize sender.invert bytes receiver fifo phase) :
    ReadsOldest sender receiver fifo.queue where
  calls := by
    intro idle
    cases carries.reader.idle_iff.mp idle
    rcases carries.callRead with ⟨isEmpty, returns⟩ | ⟨nonempty, starts, _⟩
    · rw [if_pos isEmpty]
      exact returns
    · rw [if_neg nonempty]
      exact starts
  loads := by
    intro isLoading
    have reader := carries.reader
    rw [isLoading] at reader
    cases phase with
    | idle | updating =>
        exact reader.elim
    | loading =>
        obtain ⟨byte, rest, queue, loads, _⟩ := carries.proceed_of_loading
        exact ⟨byte, rest, queue, loads⟩
  returns := by
    intro byte isUpdating
    have reader := carries.reader
    rw [isUpdating] at reader
    cases phase with
    | idle | loading =>
        exact reader.elim
    | updating =>
        obtain ⟨found, rest, next, queue, isFound, returns, later⟩ :=
          carries.proceed_of_updating
        cases isUpdating.symm.trans isFound
        refine ⟨rest, next, queue, returns,
          later.reader.idle_iff.mpr rfl, ?_⟩
        rw [later.taken, (Fifo.taken_take queue).1, List.map_append,
          ← carries.taken]
        rfl

/-- A whole read takes one byte if there is one, also if the task was in the
middle of another. -/
theorem Carries.wholeRead
    (carries : Carries buffSize sender.invert bytes receiver fifo phase) :
    ∃ next, after (Receiver.step sender) receiver wholeRead = .ok next ∧
      Carries buffSize sender.invert bytes next fifo.take.1 .idle := by
  cases phase with
  | idle =>
      rcases carries.callRead with ⟨isEmpty, returns⟩ | ⟨_, starts, started⟩
      · have stays := carries.proceed_of_idle
        refine ⟨receiver, after_concat_of_ok (after_concat_of_ok
          (after_concat_of_ok after_nil returns) stays) stays, ?_⟩
        rw [Fifo.take_empty isEmpty]
        exact carries
      · obtain ⟨byte, _, _, loads, loaded⟩ := started.proceed_of_loading
        obtain ⟨_, _, next, _, _, takes, later⟩ := loaded.proceed_of_updating
        exact ⟨next, after_concat_of_ok (after_concat_of_ok
          (after_concat_of_ok after_nil starts) loads) takes, later⟩
  | loading =>
      have ignored := carries.callRead_of_busy Phase.noConfusion
      obtain ⟨byte, _, _, loads, loaded⟩ := carries.proceed_of_loading
      obtain ⟨_, _, next, _, _, takes, later⟩ := loaded.proceed_of_updating
      exact ⟨next, after_concat_of_ok (after_concat_of_ok
        (after_concat_of_ok after_nil ignored) loads) takes, later⟩
  | updating =>
      have ignored := carries.callRead_of_busy Phase.noConfusion
      obtain ⟨_, _, next, _, _, takes, later⟩ := carries.proceed_of_updating
      exact ⟨next, after_concat_of_ok (after_concat_of_ok
        (after_concat_of_ok after_nil ignored) takes)
        later.proceed_of_idle, later⟩

/-- What was taken is the front of what was written. -/
theorem Carries.taken_eq
    (carries : Carries buffSize sender.invert bytes receiver fifo phase) :
    fifo.taken = bytes.take fifo.taken.length := by
  rw [← carries.accepted, fifo.order, List.take_left]

theorem Carries.wholeReads
    (carries : Carries buffSize sender.invert bytes receiver fifo phase)
    (count : Nat) :
    ∃ last later lastPhase,
      after (Receiver.step sender) receiver (wholeReads count) = .ok last ∧
        Carries buffSize sender.invert bytes last later lastPhase ∧
        later.taken = bytes.take (fifo.taken.length + count) := by
  induction count with
  | zero =>
      exact ⟨receiver, fifo, phase, after_nil, carries, carries.taken_eq⟩
  | succ count inductionHypothesis =>
      obtain ⟨middle, middleFifo, _, reached, carriesMiddle, taken⟩ :=
        inductionHypothesis
      obtain ⟨last, read, carriesLast⟩ := carriesMiddle.wholeRead
      refine ⟨last, _, _, after_append_eq_ok_iff.mpr ⟨middle, reached, read⟩,
        carriesLast, ?_⟩
      have whole := middleFifo.order
      rw [carriesMiddle.accepted, taken] at whole
      have rest := List.append_cancel_left
        (whole.symm.trans (List.take_append_drop _ bytes).symm)
      cases queue : middleFifo.queue with
      | nil =>
          rw [queue] at rest
          rw [Fifo.take_empty queue, taken, List.take_of_length_le,
            List.take_of_length_le]
          · exact Nat.le_succ_of_le (List.drop_eq_nil_iff.mp rest.symm)
          · exact List.drop_eq_nil_iff.mp rest.symm
      | cons byte others =>
          rw [queue] at rest
          rw [(Fifo.taken_take queue).1, taken, ← Nat.add_assoc,
            List.take_add_one, ← List.head?_drop, ← rest]
          rfl

end Step

/-! ## Streams -/

/-- The event is no flush, and a frame that was not written is ill-formed. -/
def LineEvent.Allowed : LineEvent → Prop
  | .noise frame => frame.IllFormed
  | .call chosen => chosen ≠ .flush
  | _ => True

theorem Carries.delivers {buffSize : Nat} {sender self : SwSerial}
    {history : List LineEvent} {receiver : Receiver} {fifo : Fifo UInt8}
    {phase : Phase}
    (reached : lineAfter sender self history = .ok receiver)
    (carries : Carries buffSize sender.invert (writtenBytes history) receiver
      fifo phase) :
    Delivers sender self history receiver where
  inOrder := ⟨fifo.taken, fifo.queue,
    carries.accepted.symm.trans fifo.order, carries.taken,
    carries.holds.inPos_eq_iff, carries.readsOldest⟩
  keepsAll := carries.holds.overflow.trans carries.keepsAll
  readsAll := by
    intro count
    obtain ⟨last, later, _, reads, carriesLast, taken⟩ :=
      carries.wholeReads count
    refine ⟨last, after_append_eq_ok_iff.mpr ⟨receiver, reached, reads⟩, ?_⟩
    rw [carriesLast.taken, taken, carries.taken, List.length_map]

/-- One event, whichever it is. -/
theorem Carries.goesOn {buffSize : Nat} {sender : SwSerial}
    {history : List LineEvent} {event : LineEvent} {receiver : Receiver}
    {fifo : Fifo UInt8} {phase : Phase}
    (carries : Carries buffSize sender.invert (writtenBytes history) receiver
      fifo phase)
    (allowed : event.Allowed)
    (room : ∀ byte, event = .written byte →
      nextPosition receiver.port.self receiver.port.self.inPos ≠
        receiver.port.self.outPos) :
    GoesOn buffSize sender receiver event
      (writtenBytes (history ++ [event])) := by
  rw [writtenBytes_concat]
  cases event with
  | written byte =>
      exact carries.written byte (room byte rfl)
  | noise frame =>
      refine ⟨receiver, none, fifo, phase,
        Receiver.step_noise allowed sender receiver, ?_⟩
      exact (List.append_nil (writtenBytes history)).symm ▸ carries
  | call chosen =>
      exact (List.append_nil (writtenBytes history)).symm ▸ carries.call allowed
  | proceed =>
      exact (List.append_nil (writtenBytes history)).symm ▸ carries.proceed

/-- For every stream of written bytes, whatever the size of the ring and
whether or not the two ports invert, as long as a byte that arrives finds
room: `sw_read` returns the written bytes in their order, at any time the rest
of them is in the ring, and ill-formed frames in between neither change the
port nor what it does with the others. -/
theorem written_bytes_read_in_order {buffSize : BitVec 32}
    (positive : 1 ≤ buffSize.toNat) (invert : Bool)
    (memory : Buffer buffSize.toNat) {sender self : SwSerial}
    (sameInvert : sender.invert = invert)
    (created : swNew invert buffSize true (some memory) = some self)
    (history : List LineEvent)
    (allowed : ∀ event, event ∈ history → event.Allowed)
    (room : AtEveryStep (FindsRoom sender self) history) :
    ∃ receiver, lineAfter sender self history = .ok receiver ∧
      Delivers sender self history receiver ∧
      lineAfter sender self
          (history.filter fun event => !event.isNoise) = .ok receiver ∧
      ∀ frame : Frame, frame.IllFormed →
        swRxHandler receiver.port.self frame = .ok receiver.port.self := by
  subst sameInvert
  injection created with isSelf
  have start : Carries buffSize.toNat sender.invert (writtenBytes [])
      { port := { self, reader := .idle }, returned := [] } Fifo.empty
      .idle := by
    rw [← isSelf]
    refine ⟨⟨rfl, memory.length_cells, rfl⟩, ⟨RingHolds.empty ?_, rfl⟩,
      trivial, rfl, rfl, rfl⟩
    rw [memory.length_cells]
    exact positive
  have run : ∃ receiver, lineAfter sender self history = .ok receiver ∧
      ∃ fifo phase, Carries buffSize.toNat sender.invert
        (writtenBytes history) receiver fifo phase := by
    refine after_total_of_steps
      (fun history receiver => ∃ fifo phase, Carries buffSize.toNat
        sender.invert (writtenBytes history) receiver fifo phase)
      (fun front event => event.Allowed ∧ FindsRoom sender self front event)
      ⟨_, _, start⟩ ?_ ?_
    · intro front event receiver reached carried keeps
      obtain ⟨fifo, phase, carries⟩ := carried
      obtain ⟨next, output, later, nextPhase, stepped, carriesNext⟩ :=
        carries.goesOn keeps.1 fun byte isWritten =>
          keeps.2 byte receiver isWritten reached
      exact ⟨next, output, stepped, later, nextPhase, carriesNext⟩
    · intro front event behind shape
      have member : event ∈ history := by
        rw [shape]
        simp
      exact ⟨allowed event member, room front event behind shape⟩
  obtain ⟨receiver, reached, fifo, phase, carries⟩ := run
  refine ⟨receiver, reached, carries.delivers reached, ?_, ?_⟩
  · rw [← reached]
    apply after_filter
    intro event member notKept state
    cases event with
    | noise frame =>
        exact ⟨none, Receiver.step_noise (allowed _ member) sender state⟩
    | written byte | call chosen | proceed =>
        cases notKept
  · intro frame illFormed
    exact swRxHandler_of_illFormed illFormed receiver.port.self

/-- A port with a ring of three cells that inverts. -/
def invertingPort : SwSerial where
  buffSize := 3
  invert := true
  overflow := false
  inPos := 0
  outPos := 0
  buffer := [0, 0, 0]

/-- Two bytes around an ill-formed frame and a read. -/
def shortStream : List LineEvent :=
  [.written 65, .noise { start := true, data := fun _ => true, stop := true },
    .call .read, .proceed, .proceed, .written 66]

theorem findsRoom_of_computed {sender self : SwSerial}
    {front : List LineEvent} {event : LineEvent}
    (computed : (lineAfter sender self front).map (fun receiver =>
      decide (nextPosition receiver.port.self receiver.port.self.inPos =
        receiver.port.self.outPos)) = .ok false) :
    FindsRoom sender self front event := by
  intro byte receiver _ reached
  rw [reached] at computed
  injection computed with isFalse
  exact of_decide_eq_false isFalse

theorem written_bytes_read_in_order_shortStream :
    ∃ receiver, lineAfter invertingPort invertingPort shortStream =
        .ok receiver ∧
      Delivers invertingPort invertingPort shortStream receiver := by
  have allowed : ∀ event, event ∈ shortStream → event.Allowed := by
    simp [shortStream, LineEvent.Allowed, Frame.IllFormed]
  have room :
      AtEveryStep (FindsRoom invertingPort invertingPort) shortStream := by
    simp only [shortStream, atEveryStep_cons_iff]
    refine ⟨?_, ?_, ?_, ?_, ?_, ?_, atEveryStep_nil _⟩ <;>
      exact findsRoom_of_computed (by decide +kernel)
  have created : swNew true (3 : BitVec 32) true (some (Buffer.zero 3)) =
      some invertingPort := rfl
  obtain ⟨receiver, reached, delivers, _⟩ :=
    @written_bytes_read_in_order 3 (by decide) true (Buffer.zero 3)
      invertingPort invertingPort rfl created shortStream allowed room
  exact ⟨receiver, reached, delivers⟩

end Esp32Source.Uart
