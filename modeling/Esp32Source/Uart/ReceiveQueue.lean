import Mathlib.Algebra.Group.Nat.Defs
import Esp32Source.Memory.Ring
import Esp32Source.Machine.Fifo
import Esp32Source.Uart.SwSerial

/-!
# The receive ring is a queue

The ring and the steps of its functions do, step by step and result by result,
what a queue of capacity `buffSize - 1` does.  A call of `sw_read` takes the
oldest byte at its last step: until then the byte is unread and its cell is not
free, so that a run of the handler in between neither overwrites nor
duplicates it.
-/

namespace Esp32Source.Uart

open Memory Machine

/-! ## The queue -/

/-- The byte that a frame brings: none unless the start level is low and the
stop level high. -/
def Frame.byte (invert : Bool) (frame : Frame) : Option UInt8 :=
  if frame.start = false ∧ frame.stop = true then
    some (if invert then ~~~sampledByte frame.data
      else sampledByte frame.data)
  else none

/-- How far the reader has come in taking a byte. -/
inductive Phase where
  | idle
  | loading
  | updating
  deriving DecidableEq, Repr

/-- The queue and its reader. -/
structure ReceiveQueue where
  fifo : Fifo UInt8
  phase : Phase

/-- The oldest unread byte as a result, or -1. -/
def ReceiveQueue.oldest (model : ReceiveQueue) : Int :=
  match model.fifo.queue with
  | [] => -1
  | byte :: _ => byte.toNat

def ReceiveQueue.call (model : ReceiveQueue) :
    ReaderCall → ReceiveQueue × Option Int
  | .read =>
      if model.fifo.queue = [] then (model, some (-1))
      else ({ model with phase := .loading }, none)
  | .peek => (model, some model.oldest)
  | .any => (model, some model.fifo.queue.length)
  | .flush => ({ model with fifo := Fifo.empty }, none)
  | .overflow => (model, some (if model.fifo.dropped then 1 else 0))

def ReceiveQueue.step (capacity : Nat) (invert : Bool)
    (model : ReceiveQueue) : PortEvent → ReceiveQueue × Option Int
  | .frame frame =>
      match frame.byte invert with
      | none => (model, none)
      | some byte =>
          ({ model with fifo := model.fifo.receive capacity byte }, none)
  | .proceed =>
      match model.phase with
      | .idle => (model, none)
      | .loading => ({ model with phase := .updating }, none)
      | .updating =>
          ({ fifo := model.fifo.take.1, phase := .idle },
            some model.oldest)
  | .call call =>
      if model.phase = .idle then model.call call else (model, none)

def ReceiveQueue.empty : ReceiveQueue where
  fifo := Fifo.empty
  phase := .idle

def queueAfter (capacity : Nat) (invert : Bool)
    (history : List PortEvent) : ReceiveQueue :=
  final (ReceiveQueue.step capacity invert) ReceiveQueue.empty history

/-! ## Positions -/

/-- The ring of a port that was created with this size. -/
structure Sized (serial : SwSerial) (buffSize : Nat) (invert : Bool) :
    Prop where
  size : serial.buffSize.toNat = buffSize
  cells : serial.buffer.length = buffSize
  small : buffSize < 2 ^ 31
  inverts : serial.invert = invert

/-- The same, whatever the size. -/
structure Ringed (serial : SwSerial) (buffSize : Nat) (invert : Bool) :
    Prop where
  size : serial.buffSize.toNat = buffSize
  cells : serial.buffer.length = buffSize
  inverts : serial.invert = invert

theorem Sized.ringed {serial : SwSerial} {buffSize : Nat} {invert : Bool}
    (sized : Sized serial buffSize invert) :
    Ringed serial buffSize invert :=
  ⟨sized.size, sized.cells, sized.inverts⟩

theorem Ringed.sized {serial : SwSerial} {buffSize : Nat} {invert : Bool}
    (ringed : Ringed serial buffSize invert) (small : buffSize < 2 ^ 31) :
    Sized serial buffSize invert :=
  ⟨ringed.size, ringed.cells, small, ringed.inverts⟩

/-- The ring holds the unread bytes, and the flag says whether one was
dropped. -/
structure Holds (serial : SwSerial) (fifo : Fifo UInt8) : Prop where
  ring : RingHolds serial.buffer serial.outPos.toNat serial.inPos.toNat
    fifo.queue
  overflow : serial.overflow = fifo.dropped

theorem Ringed.nextPosition {serial : SwSerial} {buffSize : Nat}
    {invert : Bool} (ringed : Ringed serial buffSize invert)
    {position : BitVec 32} (below : position.toNat < buffSize) :
    (nextPosition serial position).toNat =
      (position.toNat + 1) % serial.buffer.length := by
  have size := ringed.size
  have bounded := serial.buffSize.isLt
  rw [Uart.nextPosition, BitVec.toNat_umod, BitVec.toNat_add, ringed.size,
    ringed.cells]
  have noCarry : position.toNat + (1 : BitVec 32).toNat < 2 ^ 32 := by
    have one : (1 : BitVec 32).toNat = 1 := rfl
    omega
  rw [Nat.mod_eq_of_lt noCarry]
  rfl

/-- The difference of two positions, read with its sign. -/
theorem toInt_sub_of_small {first second : BitVec 32}
    (firstSmall : first.toNat < 2 ^ 31)
    (secondSmall : second.toNat < 2 ^ 31) :
    (first - second).toInt = (first.toNat : Int) - second.toNat := by
  rw [BitVec.toInt_eq_toNat_cond, BitVec.toNat_sub]
  split <;> omega

/-- Adding the size to a negative difference gives the distance around the
end. -/
theorem toInt_sub_add_of_small {first second size : BitVec 32}
    (behind : first.toNat < second.toNat)
    (below : second.toNat ≤ size.toNat) (small : size.toNat < 2 ^ 31) :
    (first - second + size).toInt =
      (first.toNat : Int) + size.toNat - second.toNat := by
  rw [BitVec.toInt_eq_toNat_cond, BitVec.toNat_add, BitVec.toNat_sub]
  split <;> omega

/-- `sw_any` counts the unread bytes. -/
theorem Holds.swAny_eq {serial : SwSerial} {fifo : Fifo UInt8}
    (holds : Holds serial fifo) {buffSize : Nat} {invert : Bool}
    (sized : Sized serial buffSize invert) :
    swAny serial = fifo.queue.length := by
  have size := sized.size
  have cells := sized.cells
  have small := sized.small
  have outBelow := holds.ring.outBelow
  have inBelow := holds.ring.inBelow
  have distance := holds.ring.length_eq
  have difference : (serial.inPos - serial.outPos).toInt =
      (serial.inPos.toNat : Int) - serial.outPos.toNat :=
    toInt_sub_of_small (by omega) (by omega)
  rw [swAny, difference]
  by_cases wrapped : serial.inPos.toNat < serial.outPos.toNat
  · rw [if_pos (by omega), toInt_sub_add_of_small wrapped (by omega)
      (by omega)]
    rw [if_pos wrapped] at distance
    omega
  · rw [if_neg (by omega)]
    rw [if_neg wrapped] at distance
    omega

/-! ## One function at a time -/

theorem Holds.inPos_eq_iff {serial : SwSerial} {fifo : Fifo UInt8}
    (holds : Holds serial fifo) :
    serial.inPos = serial.outPos ↔ fifo.queue = [] := by
  rw [← holds.ring.eq_iff]
  exact BitVec.toNat_inj.symm

/-- The handler takes the ring for full when the queue is. -/
theorem Holds.full_iff {serial : SwSerial} {fifo : Fifo UInt8}
    {buffSize : Nat} {invert : Bool} (ringed : Ringed serial buffSize invert)
    (holds : Holds serial fifo) :
    nextPosition serial serial.inPos = serial.outPos ↔
      fifo.queue.length = buffSize - 1 := by
  have inBelow := holds.ring.inBelow
  have cells := ringed.cells
  rw [← BitVec.toNat_inj, ringed.nextPosition (by omega),
    holds.ring.next_eq_iff, cells]

/-- A frame is received as the queue receives its byte, or ignored. -/
theorem swRxHandler_receives {serial : SwSerial} {fifo : Fifo UInt8}
    {buffSize : Nat} {invert : Bool} (ringed : Ringed serial buffSize invert)
    (holds : Holds serial fifo) (frame : Frame) :
    ∃ next, swRxHandler serial frame = .ok next ∧
      Ringed next buffSize invert ∧
      Holds next
        (match frame.byte invert with
          | none => fifo
          | some byte => fifo.receive (buffSize - 1) byte) := by
  have outBelow := holds.ring.outBelow
  have inBelow := holds.ring.inBelow
  have cells := ringed.cells
  have inverts := ringed.inverts
  subst inverts
  rw [swRxHandler, Frame.byte]
  by_cases started : frame.start = false
  swap
  · rw [if_neg started, if_neg (fun both => started both.1)]
    exact ⟨serial, rfl, ringed, holds⟩
  by_cases stopped : frame.stop = true
  swap
  · rw [if_pos started, if_neg stopped, if_neg (fun both => stopped both.2)]
    exact ⟨serial, rfl, ringed, holds⟩
  have both : frame.start = false ∧ frame.stop = true :=
    ⟨started, stopped⟩
  rw [if_pos started, if_pos stopped, if_pos both]
  dsimp only
  have nextAt := ringed.nextPosition (by omega : serial.inPos.toNat < buffSize)
  have isFull := holds.full_iff ringed
  by_cases full : fifo.queue.length = buffSize - 1
  · rw [if_neg (not_not_intro (isFull.mpr full)), Fifo.receive_full full]
    exact ⟨_, rfl, ⟨ringed.size, ringed.cells, rfl⟩, holds.ring, rfl⟩
  · rw [if_pos (mt isFull.mp full)]
    rw [storeByte, if_pos inBelow]
    refine ⟨_, rfl, ⟨ringed.size, ?_, rfl⟩, ?_, ?_⟩
    · rw [List.length_set]
      exact cells
    · rw [(Fifo.queue_receive full _).1]
      dsimp only
      rw [nextAt]
      apply holds.ring.push
      rw [Ne, holds.ring.next_eq_iff, cells]
      exact full
    · rw [(Fifo.queue_receive full _).2]
      exact holds.overflow

theorem swPeek_returns {serial : SwSerial} {model : ReceiveQueue}
    (holds : Holds serial model.fifo) :
    swPeek serial = .ok model.oldest := by
  rw [swPeek, ReceiveQueue.oldest]
  cases queue : model.fifo.queue with
  | nil =>
      rw [if_neg (not_not_intro (holds.inPos_eq_iff.mpr queue))]
  | cons byte rest =>
      have notEmpty : model.fifo.queue ≠ [] := by
        rw [queue]
        exact List.cons_ne_nil _ _
      rw [if_pos (mt holds.inPos_eq_iff.mp notEmpty), loadByte,
        holds.ring.head queue]
      rfl

theorem swFlush_holds {serial : SwSerial} {fifo : Fifo UInt8}
    {buffSize : Nat} {invert : Bool} (sized : Sized serial buffSize invert)
    (holds : Holds serial fifo) :
    Sized (swFlush serial) buffSize invert ∧
      Holds (swFlush serial) Fifo.empty := by
  have below : 0 < serial.buffer.length :=
    Nat.zero_lt_of_lt holds.ring.outBelow
  exact ⟨⟨sized.size, sized.cells, sized.small, sized.inverts⟩,
    RingHolds.empty below, rfl⟩

/-- The last step of `sw_read` takes the oldest byte. -/
theorem holds_of_take {serial : SwSerial} {fifo : Fifo UInt8}
    {buffSize : Nat} {invert : Bool} (ringed : Ringed serial buffSize invert)
    (holds : Holds serial fifo) {byte : UInt8} {rest : List UInt8}
    (queue : fifo.queue = byte :: rest) :
    Holds { serial with outPos := nextPosition serial serial.outPos }
      fifo.take.1 := by
  have outBelow := holds.ring.outBelow
  have cells := ringed.cells
  have ring := holds.ring
  rw [queue] at ring
  obtain ⟨taken, sameFlag, _⟩ := Fifo.queue_take queue
  refine ⟨?_, ?_⟩
  · rw [taken]
    dsimp only
    rw [ringed.nextPosition (by omega)]
    exact ring.pop
  · rw [sameFlag]
    exact holds.overflow

/-! ## The simulation -/

/-- The reader of the queue stands where the reader of the ring does, and a
loaded byte is the oldest one. -/
def SameReader (queue : List UInt8) : Reader → Phase → Prop
  | .idle, .idle => True
  | .loading, .loading => queue ≠ []
  | .updating ch, .updating => queue.head? = some ch
  | _, _ => False

structure Follows (buffSize : Nat) (invert : Bool) (port : Port)
    (model : ReceiveQueue) : Prop where
  sized : Sized port.self buffSize invert
  holds : Holds port.self model.fifo
  reader : SameReader model.fifo.queue port.reader model.phase

theorem SameReader.cases {queue : List UInt8} {reader : Reader}
    {phase : Phase} (same : SameReader queue reader phase) :
    (reader = .idle ∧ phase = .idle) ∨
      (reader = .loading ∧ phase = .loading ∧ queue ≠ []) ∨
      ∃ ch, reader = .updating ch ∧ phase = .updating ∧
        queue.head? = some ch := by
  cases reader with
  | idle =>
      cases phase with
      | idle => exact Or.inl ⟨rfl, rfl⟩
      | loading => exact same.elim
      | updating => exact same.elim
  | loading =>
      cases phase with
      | idle => exact same.elim
      | loading => exact Or.inr (Or.inl ⟨rfl, rfl, same⟩)
      | updating => exact same.elim
  | updating ch =>
      cases phase with
      | idle => exact same.elim
      | loading => exact same.elim
      | updating => exact Or.inr (Or.inr ⟨ch, rfl, rfl, same⟩)

/-- An arriving byte does not disturb the reader. -/
theorem SameReader.receive {fifo : Fifo UInt8} {reader : Reader}
    {phase : Phase} (same : SameReader fifo.queue reader phase)
    (capacity : Nat) (byte : UInt8) :
    SameReader (fifo.receive capacity byte).queue reader phase := by
  by_cases full : fifo.queue.length = capacity
  · rw [Fifo.receive_full full]
    exact same
  · rw [(Fifo.queue_receive full byte).1]
    rcases same.cases with ⟨isIdle, phaseIdle⟩ |
      ⟨isLoading, phaseLoading, nonempty⟩ | ⟨ch, isUpdating, phaseUpdating,
        isHead⟩
    · rw [isIdle, phaseIdle]
      trivial
    · rw [isLoading, phaseLoading]
      exact List.append_ne_nil_of_left_ne_nil nonempty _
    · rw [isUpdating, phaseUpdating]
      change (fifo.queue ++ [byte]).head? = some ch
      rw [List.head?_append, isHead]
      rfl

/-- A step inside `sw_read`, by where the reader stands: there is none, the
oldest byte is loaded, or it is taken and returned. -/
theorem SameReader.proceed {port : Port} {fifo : Fifo UInt8} {phase : Phase}
    {buffSize : Nat} {invert : Bool}
    (same : SameReader fifo.queue port.reader phase)
    (ringed : Ringed port.self buffSize invert)
    (holds : Holds port.self fifo) :
    (phase = .idle ∧ port.proceed = .ok (port, none)) ∨
      (phase = .loading ∧ ∃ byte rest, fifo.queue = byte :: rest ∧
        port.proceed =
          .ok ({ port with reader := .updating byte }, none)) ∨
      (phase = .updating ∧ ∃ byte rest self, fifo.queue = byte :: rest ∧
        port.proceed =
            .ok ({ self, reader := .idle }, some (byte.toNat : Int)) ∧
          Ringed self buffSize invert ∧ Holds self fifo.take.1) := by
  rcases same.cases with ⟨reader, isIdle⟩ | ⟨reader, isLoading, nonempty⟩ |
    ⟨ch, reader, isUpdating, isHead⟩
  · refine Or.inl ⟨isIdle, ?_⟩
    rw [Port.proceed, reader]
  · obtain ⟨byte, rest, queue⟩ := List.exists_cons_of_ne_nil nonempty
    refine Or.inr (Or.inl ⟨isLoading, byte, rest, queue, ?_⟩)
    rw [Port.proceed, reader]
    dsimp only
    rw [loadByte, holds.ring.head queue]
    rfl
  · obtain ⟨rest, queue⟩ := List.head?_eq_some_iff.mp isHead
    refine Or.inr (Or.inr ⟨isUpdating, ch, rest,
      { port.self with outPos := nextPosition port.self port.self.outPos },
      queue, ?_, ⟨ringed.size, ringed.cells, ringed.inverts⟩,
      holds_of_take ringed holds queue⟩)
    rw [Port.proceed, reader]

theorem Follows.frame {buffSize : Nat} {invert : Bool} {port : Port}
    {model : ReceiveQueue} (follows : Follows buffSize invert port model)
    (frame : Frame) :
    ∃ next,
      port.step (.frame frame) =
          .ok (next, (model.step (buffSize - 1) invert (.frame frame)).2) ∧
        Follows buffSize invert next
          (model.step (buffSize - 1) invert (.frame frame)).1 := by
  obtain ⟨serial, received, ringed, holds⟩ :=
    swRxHandler_receives follows.sized.ringed follows.holds frame
  have sized := ringed.sized follows.sized.small
  refine ⟨{ port with self := serial }, ?_, ?_⟩
  · rw [Port.step, received, ReceiveQueue.step]
    cases frame.byte invert <;> rfl
  · rw [ReceiveQueue.step]
    cases brings : frame.byte invert with
    | none =>
        rw [brings] at holds
        exact ⟨sized, holds, follows.reader⟩
    | some byte =>
        rw [brings] at holds
        exact ⟨sized, holds, follows.reader.receive _ _⟩

theorem SameReader.idle_iff {queue : List UInt8} {reader : Reader}
    {phase : Phase} (same : SameReader queue reader phase) :
    reader = .idle ↔ phase = .idle := by
  rcases same.cases with ⟨isIdle, phaseIdle⟩ |
    ⟨isLoading, phaseLoading, _⟩ | ⟨ch, isUpdating, phaseUpdating, _⟩
  · exact iff_of_true isIdle phaseIdle
  · rw [isLoading, phaseLoading]
    exact iff_of_false Reader.noConfusion Phase.noConfusion
  · rw [isUpdating, phaseUpdating]
    exact iff_of_false Reader.noConfusion Phase.noConfusion

theorem Follows.call {buffSize : Nat} {invert : Bool} {port : Port}
    {model : ReceiveQueue} (follows : Follows buffSize invert port model)
    (call : ReaderCall) :
    ∃ next,
      port.step (.call call) =
          .ok (next, (model.step (buffSize - 1) invert (.call call)).2) ∧
        Follows buffSize invert next
          (model.step (buffSize - 1) invert (.call call)).1 := by
  have holds := follows.holds
  have sized := follows.sized
  rw [Port.step, ReceiveQueue.step]
  by_cases idle : model.phase = .idle
  swap
  · rw [if_neg idle, if_neg (mt follows.reader.idle_iff.mp idle)]
    exact ⟨port, rfl, follows⟩
  rw [if_pos idle, if_pos (follows.reader.idle_iff.mpr idle)]
  cases call with
  | read =>
      rw [Port.call, ReceiveQueue.call]
      by_cases isEmpty : model.fifo.queue = []
      · rw [if_pos isEmpty,
          if_neg (not_not_intro (holds.inPos_eq_iff.mpr isEmpty))]
        exact ⟨port, rfl, follows⟩
      · rw [if_neg isEmpty, if_pos (mt holds.inPos_eq_iff.mp isEmpty)]
        exact ⟨_, rfl, sized, holds, isEmpty⟩
  | peek =>
      rw [Port.call, ReceiveQueue.call, swPeek_returns holds]
      exact ⟨port, rfl, follows⟩
  | any =>
      rw [Port.call, ReceiveQueue.call, holds.swAny_eq sized]
      exact ⟨port, rfl, follows⟩
  | flush =>
      obtain ⟨sizedNext, holdsNext⟩ := swFlush_holds sized holds
      have reader := follows.reader.idle_iff.mpr idle
      refine ⟨_, rfl, sizedNext, holdsNext, ?_⟩
      rw [ReceiveQueue.call, reader, idle]
      trivial
  | overflow =>
      rw [Port.call, ReceiveQueue.call, swOverflow, holds.overflow]
      exact ⟨port, rfl, follows⟩

theorem Follows.proceed {buffSize : Nat} {invert : Bool} {port : Port}
    {model : ReceiveQueue} (follows : Follows buffSize invert port model) :
    ∃ next,
      port.step .proceed =
          .ok (next, (model.step (buffSize - 1) invert .proceed).2) ∧
        Follows buffSize invert next
          (model.step (buffSize - 1) invert .proceed).1 := by
  have sized := follows.sized
  rw [ReceiveQueue.step]
  rcases follows.reader.proceed sized.ringed follows.holds with
    ⟨phase, stays⟩ | ⟨phase, byte, rest, queue, loads⟩ |
      ⟨phase, byte, rest, self, queue, takes, ringed, holds⟩
  · rw [phase]
    exact ⟨port, stays, follows⟩
  · rw [phase]
    refine ⟨_, loads, sized, follows.holds, ?_⟩
    change model.fifo.queue.head? = some byte
    rw [queue]
    rfl
  · rw [phase]
    have result : model.oldest = byte.toNat := by
      rw [ReceiveQueue.oldest, queue]
    rw [result]
    exact ⟨_, takes, ringed.sized sized.small, holds, trivial⟩

theorem Follows.step {buffSize : Nat} {invert : Bool} {port : Port}
    {model : ReceiveQueue} (follows : Follows buffSize invert port model)
    (event : PortEvent) :
    ∃ next,
      port.step event =
          .ok (next, (model.step (buffSize - 1) invert event).2) ∧
        Follows buffSize invert next
          (model.step (buffSize - 1) invert event).1 := by
  cases event with
  | frame frame => exact follows.frame frame
  | call call => exact follows.call call
  | proceed => exact follows.proceed

/-! ## What the overflow flag says -/

/-- The event brings a byte while `capacity` bytes are unread. -/
def Drops (capacity : Nat) (invert : Bool) (front : List PortEvent)
    (event : PortEvent) : Prop :=
  ∃ frame byte, event = .frame frame ∧ frame.byte invert = some byte ∧
    (queueAfter capacity invert front).fifo.queue.length = capacity

/-- The event is a call of `sw_flush`. -/
def Flushes (capacity : Nat) (invert : Bool) (front : List PortEvent)
    (event : PortEvent) : Prop :=
  event = .call .flush ∧ (queueAfter capacity invert front).phase = .idle

/-- A byte was dropped, and `sw_flush` was not called since. -/
def DroppedSinceFlush (capacity : Nat) (invert : Bool)
    (history : List PortEvent) : Prop :=
  ∃ before event behind,
    history = before ++ event :: behind ∧
      Drops capacity invert before event ∧
      ∀ middle later rest, behind = middle ++ later :: rest →
        ¬ Flushes capacity invert (before ++ event :: middle) later

theorem droppedSinceFlush_concat_iff {capacity : Nat} {invert : Bool}
    {history : List PortEvent} {event : PortEvent} :
    DroppedSinceFlush capacity invert (history ++ [event]) ↔
      Drops capacity invert history event ∨
        (DroppedSinceFlush capacity invert history ∧
          ¬ Flushes capacity invert history event) := by
  constructor
  · rintro ⟨before, dropped, behind, shape, drops, quiet⟩
    rcases concat_eq_append_cons_iff.mp shape with
      ⟨_, isBefore, isEvent⟩ | ⟨rest, isBehind, shapeEarlier⟩
    · rw [← isBefore, ← isEvent] at drops
      exact Or.inl drops
    · refine Or.inr ⟨⟨before, dropped, rest, shapeEarlier, drops, ?_⟩, ?_⟩
      · intro middle later more isRest
        apply quiet middle later (more ++ [event])
        rw [isBehind, isRest, List.append_assoc, List.cons_append]
      · rw [shapeEarlier]
        exact quiet rest event [] isBehind
  · rintro (drops | ⟨⟨before, dropped, behind, shape, drops, quiet⟩, keeps⟩)
    · refine ⟨history, event, [], rfl, drops, ?_⟩
      intro middle later rest isNil
      simp at isNil
    · refine ⟨before, dropped, behind ++ [event], ?_, drops, ?_⟩
      · rw [shape, List.append_assoc, List.cons_append]
      · intro middle later rest isBehind
        rcases concat_eq_append_cons_iff.mp isBehind with
          ⟨_, isMiddle, isLater⟩ | ⟨more, _, isEarlier⟩
        · rw [← isMiddle, ← isLater, ← shape]
          exact keeps
        · exact quiet middle later more isEarlier

theorem queueAfter_concat (capacity : Nat) (invert : Bool)
    (history : List PortEvent) (event : PortEvent) :
    queueAfter capacity invert (history ++ [event]) =
      ((queueAfter capacity invert history).step capacity invert event).1 :=
  final_concat history event

/-- Only a frame drops a byte, -/
theorem not_drops {capacity : Nat} {invert : Bool}
    {history : List PortEvent} {event : PortEvent}
    (noFrame : ∀ frame, event ≠ .frame frame) :
    ¬ Drops capacity invert history event := by
  rintro ⟨frame, _, isFrame, _⟩
  exact noFrame frame isFrame

/-- only a call of `sw_flush` flushes, -/
theorem not_flushes {capacity : Nat} {invert : Bool}
    {history : List PortEvent} {event : PortEvent}
    (noFlush : event ≠ .call .flush) :
    ¬ Flushes capacity invert history event :=
  fun flushes => noFlush flushes.1

theorem drops_frame_iff {capacity : Nat} {invert : Bool}
    {history : List PortEvent} {frame : Frame} :
    Drops capacity invert history (.frame frame) ↔
      ∃ byte, frame.byte invert = some byte ∧
        (queueAfter capacity invert history).fifo.queue.length =
          capacity := by
  constructor
  · rintro ⟨other, byte, same, brings, full⟩
    cases same
    exact ⟨byte, brings, full⟩
  · rintro ⟨byte, brings, full⟩
    exact ⟨frame, byte, rfl, brings, full⟩

/-- and no other call touches the flag. -/
theorem ReceiveQueue.call_dropped {call : ReaderCall}
    (noFlush : call ≠ .flush) (model : ReceiveQueue) :
    (model.call call).1.fifo.dropped = model.fifo.dropped := by
  cases call with
  | flush => exact absurd rfl noFlush
  | read =>
      rw [ReceiveQueue.call]
      split <;> rfl
  | peek => rw [ReceiveQueue.call]
  | any => rw [ReceiveQueue.call]
  | overflow => rw [ReceiveQueue.call]

/-- One event sets the flag when it drops a byte, clears it when it flushes,
and leaves it otherwise. -/
theorem dropped_step_iff {capacity : Nat} {invert : Bool}
    (history : List PortEvent) (event : PortEvent) :
    (queueAfter capacity invert (history ++ [event])).fifo.dropped = true ↔
      Drops capacity invert history event ∨
        ((queueAfter capacity invert history).fifo.dropped = true ∧
          ¬ Flushes capacity invert history event) := by
  rw [queueAfter_concat]
  cases event with
  | frame frame =>
      have keeps : ¬ Flushes capacity invert history (.frame frame) := by
        apply not_flushes
        intro isCall
        cases isCall
      rw [drops_frame_iff, and_iff_left keeps, ReceiveQueue.step]
      cases brings : frame.byte invert with
      | none =>
          simp
      | some byte =>
          simp [Fifo.dropped_receive_iff]
  | proceed =>
      have keeps : ¬ Flushes capacity invert history .proceed := by
        apply not_flushes
        intro isCall
        cases isCall
      have nothing : ¬ Drops capacity invert history .proceed := by
        apply not_drops
        intro frame isFrame
        cases isFrame
      rw [or_iff_right nothing, and_iff_left keeps, ReceiveQueue.step]
      cases phase : (queueAfter capacity invert history).phase with
      | idle => rfl
      | loading => rfl
      | updating =>
          dsimp only
          rw [Fifo.dropped_take]
  | call call =>
      have nothing : ¬ Drops capacity invert history (.call call) := by
        apply not_drops
        intro frame isFrame
        cases isFrame
      rw [or_iff_right nothing, ReceiveQueue.step]
      by_cases idle : (queueAfter capacity invert history).phase = .idle
      · rw [if_pos idle]
        by_cases isFlush : call = .flush
        · rw [isFlush]
          refine iff_of_false Bool.false_ne_true ?_
          exact fun both => both.2 ⟨rfl, idle⟩
        · have keeps : ¬ Flushes capacity invert history (.call call) := by
            apply not_flushes
            intro same
            injection same with isSame
            exact isFlush isSame
          rw [and_iff_left keeps, ReceiveQueue.call_dropped isFlush]
      · -- a call in the middle of a read does nothing
        have keeps : ¬ Flushes capacity invert history (.call call) :=
          fun flushes => idle flushes.2
        rw [if_neg idle, and_iff_left keeps]

theorem dropped_iff (capacity : Nat) (invert : Bool)
    (history : List PortEvent) :
    (queueAfter capacity invert history).fifo.dropped = true ↔
      DroppedSinceFlush capacity invert history := by
  induction history using List.reverseRecOn with
  | nil =>
      refine iff_of_false Bool.false_ne_true ?_
      rintro ⟨before, event, behind, shape, _⟩
      simp at shape
  | append_singleton history event inductionHypothesis =>
      rw [dropped_step_iff, droppedSinceFlush_concat_iff,
        inductionHypothesis]

/-! ## Every interleaving -/

/-- The port does what the queue does: its positions stay inside the buffer,
every function returns what the queue returns, and the flag says whether a
byte was dropped. -/
structure BehavesAsQueue (buffSize : Nat) (invert : Bool)
    (history : List PortEvent) (port : Port) : Prop where
  inBelow : port.self.inPos.toNat < buffSize
  outBelow : port.self.outPos.toNat < buffSize
  returns : ∀ event, ∃ next,
    port.step event =
      .ok (next,
        ((queueAfter (buffSize - 1) invert history).step (buffSize - 1)
          invert event).2)
  any : swAny port.self =
    (queueAfter (buffSize - 1) invert history).fifo.queue.length
  isEmpty : port.self.inPos = port.self.outPos ↔
    (queueAfter (buffSize - 1) invert history).fifo.queue = []
  overflow : swOverflow port.self = true ↔
    DroppedSinceFlush (buffSize - 1) invert history

/-- For every size, and for every interleaving of received frames with the
calls and steps of one reader task, the receive ring is a queue of capacity
`buffSize - 1`. -/
theorem portAfter_behaves_as_queue {buffSize : BitVec 32}
    (positive : 1 ≤ buffSize.toNat) (small : buffSize.toNat < 2 ^ 31)
    (invert : Bool) (memory : Buffer buffSize.toNat) {self : SwSerial}
    (created : swNew invert buffSize true (some memory) = some self)
    (history : List PortEvent) :
    ∃ port, portAfter self history = .ok port ∧
      BehavesAsQueue buffSize.toNat invert history port := by
  injection created with isSelf
  have cells : self.buffer.length = buffSize.toNat := by
    rw [← isSelf]
    exact memory.length_cells
  have start : Follows buffSize.toNat invert { self, reader := .idle }
      ReceiveQueue.empty := by
    refine ⟨⟨?_, cells, small, ?_⟩, ⟨?_, ?_⟩, trivial⟩
    · rw [← isSelf]
    · rw [← isSelf]
    · have positions : self.outPos = 0 ∧ self.inPos = 0 := by
        rw [← isSelf]
        exact ⟨rfl, rfl⟩
      rw [positions.1, positions.2]
      apply RingHolds.empty
      rw [cells]
      exact positive
    · rw [← isSelf]
      rfl
  obtain ⟨port, reached, follows⟩ :=
    after_simulates (Follows buffSize.toNat invert) start
      (fun _ _ event follows => follows.step event) history
  refine ⟨port, reached, ?_, ?_, ?_, ?_, ?_, ?_⟩
  · rw [← follows.sized.cells]
    exact follows.holds.ring.inBelow
  · rw [← follows.sized.cells]
    exact follows.holds.ring.outBelow
  · intro event
    obtain ⟨next, stepped, _⟩ := follows.step event
    exact ⟨next, stepped⟩
  · exact follows.holds.swAny_eq follows.sized
  · exact follows.holds.inPos_eq_iff
  · rw [swOverflow, follows.holds.overflow]
    exact dropped_iff _ invert history

/-- Two frames and a read in a ring of three cells. -/
theorem portAfter_behaves_as_queue_threeCells :
    ∃ port,
      portAfter
          { buffSize := 3, invert := false, overflow := false, inPos := 0,
            outPos := 0, buffer := [0, 0, 0] }
          [.frame { start := false, data := fun _ => true, stop := true },
            .call .read,
            .frame { start := false, data := fun _ => false, stop := true },
            .proceed] = .ok port ∧
        BehavesAsQueue 3 false
          [.frame { start := false, data := fun _ => true, stop := true },
            .call .read,
            .frame { start := false, data := fun _ => false, stop := true },
            .proceed] port := by
  have created : swNew false (3 : BitVec 32) true (some (Buffer.zero 3)) =
      some
        { buffSize := 3, invert := false, overflow := false, inPos := 0,
          outPos := 0, buffer := [0, 0, 0] } := rfl
  exact @portAfter_behaves_as_queue 3 (by decide) (by decide) false
    (Buffer.zero 3) _ created _

end Esp32Source.Uart
