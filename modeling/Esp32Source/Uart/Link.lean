import Esp32Source.Machine.Requests
import Esp32Source.Uart.Application
import Esp32Source.Uart.Timing

/-!
# The link between two ports

`sw_enableRx` has the handler run at the falling edges of the line, or at the
rising ones if the port inverts.  While it runs, the interrupt stays requested
whatever the line does, and the request is cleared behind it: edges that come
meanwhile are lost.

`sw_write` sets the line high before the start level, so that every byte begins
with a falling edge, and the first one with a rising edge where the line was
low.  A byte has edges in its data too.  As long as the runs are in time, each
run that starts with a byte loses all of these and ends before the next one,
and the application prints what was written.  A port that inverts misses every
byte but the first, and that one too unless the line was low.
-/

namespace Esp32Source.Uart

open Memory Machine

/-! ## The interrupt -/

/-- The types of interrupt that are asked for. -/
inductive IntrType where
  | posedge
  | negedge
  deriving DecidableEq, Repr

/-- What `sw_enableRx` asks of the driver of the pins. -/
inductive GpioCall where
  | setIntrType (type : IntrType)
  | installIsrService (flags : Nat)
  | isrHandlerAdd
  | isrHandlerRemove
  | uninstallIsrService
  deriving DecidableEq, Repr

/-- `sw_enableRx`, without the driver's answer. -/
def swEnableRx (self : SwSerial) (state : Bool) : List GpioCall :=
  if state then
    [.setIntrType (if self.invert then .posedge else .negedge),
      .installIsrService 0, .isrHandlerAdd]
  else [.isrHandlerRemove, .uninstallIsrService]

def GpioCall.intrType : GpioCall → Option IntrType
  | .setIntrType type => some type
  | _ => none

/-- The level behind the edge. -/
def IntrType.level : IntrType → Bool
  | .posedge => true
  | .negedge => false

/-- The line has an edge of this type at the cycle. -/
def IntrType.Triggers (type : IntrType) (line : Nat → Bool) (cycle : Nat) :
    Prop :=
  0 < cycle ∧ line (cycle - 1) = !type.level ∧ line cycle = type.level

/-- Where the line interrupts a port that was opened. -/
def Interrupts (self : SwSerial) (line : Nat → Bool) (cycle : Nat) : Prop :=
  ∃ type, latest GpioCall.intrType (swEnableRx self true) = some type ∧
    type.Triggers line cycle

theorem interrupts_iff {self : SwSerial} {line : Nat → Bool} {cycle : Nat} :
    Interrupts self line cycle ↔
      0 < cycle ∧ line (cycle - 1) = !self.invert ∧
        line cycle = self.invert := by
  have isType : latest GpioCall.intrType (swEnableRx self true) =
      some (if self.invert then .posedge else .negedge) := rfl
  have level : (if self.invert then IntrType.posedge else .negedge).level =
      self.invert := by
    cases self.invert <;> rfl
  rw [Interrupts, isType]
  constructor
  · rintro ⟨type, same, triggers⟩
    rw [← Option.some_inj.mp same, IntrType.Triggers, level] at triggers
    exact triggers
  · intro triggers
    refine ⟨_, rfl, ?_⟩
    rw [IntrType.Triggers, level]
    exact triggers

/-! ## The line -/

/-- A byte, the cycles at which `sw_write` sets the line high and low in front
of it, and the run from there on. -/
structure Write (bitTime : BitVec 32) where
  byte : UInt8
  pulse : Nat
  start : Nat
  run : WriterRun bitTime
  pulsed : pulse < start

/-- Where `sw_write` goes on behind its last wait. -/
def Write.ends {bitTime : BitVec 32} (one : Write bitTime) : Nat :=
  one.start + one.run.set 10

/-- The level of the pulse and the ten that last. -/
def Write.levels (sender : SwSerial) {bitTime : BitVec 32}
    (one : Write bitTime) : List (Nat × Bool) :=
  (one.pulse, true) ::
    setAt (fun place => one.start + one.run.set place)
      (heldLevels true (swWrite sender one.byte).1)

/-- Bytes that are written one after the other, on a line that has the level
`idle` at first.  `sw_new` leaves the line of a port that inverts low. -/
structure Transmission (bitTime : BitVec 32) where
  idle : Bool
  writes : List (Write bitTime)
  begun : ∀ one, one ∈ writes → 0 < one.pulse
  inTurn : writes.Pairwise fun one later => one.ends ≤ later.pulse

def Transmission.line {bitTime : BitVec 32}
    (transmission : Transmission bitTime) (sender : SwSerial)
    (cycle : Nat) : Bool :=
  levelAt transmission.idle
    (transmission.writes.flatMap (Write.levels sender)) cycle

/-! ### Levels that were set and that are still to be set -/

theorem mem_setAt {times : Nat → Nat} {levels : List Bool}
    {entry : Nat × Bool} (member : entry ∈ setAt times levels) :
    ∃ place, place < levels.length ∧ entry.1 = times place := by
  induction levels generalizing times with
  | nil =>
      cases member
  | cons level levels inductionHypothesis =>
      rw [setAt] at member
      rcases List.mem_cons.mp member with isFirst | isLater
      · rw [isFirst]
        exact ⟨0, Nat.succ_pos _, rfl⟩
      · obtain ⟨place, inside, isTime⟩ := inductionHypothesis isLater
        exact ⟨place + 1, Nat.succ_lt_succ inside, isTime⟩

theorem levelAt_append_of_past {level : Bool}
    {front behind : List (Nat × Bool)} {cycle : Nat}
    (past : ∀ entry, entry ∈ front → entry.1 ≤ cycle) :
    levelAt level (front ++ behind) cycle =
      levelAt (levelAt level front cycle) behind cycle := by
  induction front generalizing level with
  | nil =>
      rfl
  | cons entry front inductionHypothesis =>
      rw [List.forall_mem_cons] at past
      have isPast := Nat.not_lt.mpr past.1
      rw [List.cons_append, levelAt, levelAt, if_neg isPast, if_neg isPast]
      exact inductionHypothesis past.2

theorem levelAt_append_of_future {level : Bool}
    {front behind : List (Nat × Bool)} {cycle : Nat}
    (future : ∀ entry, entry ∈ behind → cycle < entry.1) :
    levelAt level (front ++ behind) cycle = levelAt level front cycle := by
  induction front generalizing level with
  | nil =>
      cases behind with
      | nil =>
          rfl
      | cons entry behind =>
          exact if_pos (future entry List.mem_cons_self)
  | cons entry front inductionHypothesis =>
      rw [List.cons_append, levelAt, levelAt, inductionHypothesis]

theorem levelAt_setAt_shift {times : Nat → Nat} {levels : List Bool}
    {level : Bool} {start cycle : Nat} (begun : start ≤ cycle) :
    levelAt level (setAt (fun place => start + times place) levels) cycle =
      levelAt level (setAt times levels) (cycle - start) := by
  induction levels generalizing times level with
  | nil =>
      rfl
  | cons next levels inductionHypothesis =>
      have sameTest : cycle < start + times 0 ↔ cycle - start < times 0 := by
        omega
      rw [setAt, setAt, levelAt, levelAt]
      simp only [sameTest]
      rw [inductionHypothesis]

section Line

variable {bitTime : BitVec 32} {sender self : SwSerial} {cycle : Nat}
  {one : Write bitTime} (transmission : Transmission bitTime)

theorem Write.start_lt_ends (one : Write bitTime)
    (positive : 0 < bitTime.toNat) :
    one.start + one.run.set 9 < one.ends := by
  have lasts : one.run.set 9 + bitTime.toNat ≤ one.run.set 10 :=
    one.run.set_succ (Nat.le_refl 9)
  rw [ends]
  omega

/-- The times of a byte lie between its pulse and its stop level. -/
theorem Write.mem_levels {entry : Nat × Bool}
    (member : entry ∈ one.levels sender) :
    one.pulse ≤ entry.1 ∧ entry.1 ≤ one.ends := by
  have pulsed := one.pulsed
  rcases List.mem_cons.mp member with isPulse | isHeld
  · rw [isPulse, ends]
    exact ⟨Nat.le_refl _, by omega⟩
  · obtain ⟨place, inside, isTime⟩ := mem_setAt isHeld
    rw [length_heldLevels_swWrite] at inside
    have before := one.run.set_le (Nat.le_of_lt inside) (Nat.le_refl 10)
    rw [isTime, ends]
    omega

/-- From the pulse of a byte to that of the next one, the line has its
levels. -/
theorem Transmission.line_of_split {front behind : List (Write bitTime)}
    (shape : transmission.writes = front ++ one :: behind)
    (begun : one.pulse ≤ cycle)
    (notYet : ∀ later, later ∈ behind → cycle < later.pulse) :
    transmission.line sender cycle =
      if cycle < one.start then true
      else lineLevel sender one.byte one.run (cycle - one.start) := by
  have inTurn := transmission.inTurn
  rw [shape, List.pairwise_append] at inTurn
  have past : ∀ entry, entry ∈ front.flatMap (Write.levels sender) →
      entry.1 ≤ cycle := by
    intro entry member
    obtain ⟨earlier, isEarlier, inLevels⟩ := List.mem_flatMap.mp member
    have before := inTurn.2.2 earlier isEarlier one List.mem_cons_self
    have bounds := Write.mem_levels inLevels
    omega
  have future : ∀ entry, entry ∈ behind.flatMap (Write.levels sender) →
      cycle < entry.1 := by
    intro entry member
    obtain ⟨later, isLater, inLevels⟩ := List.mem_flatMap.mp member
    have waits := notYet later isLater
    have bounds := Write.mem_levels inLevels
    omega
  rw [line, shape, List.flatMap_append, List.flatMap_cons,
    levelAt_append_of_past past, levelAt_append_of_future future,
    Write.levels, levelAt, if_neg (Nat.not_lt.mpr begun)]
  by_cases inPulse : cycle < one.start
  · rw [if_pos inPulse, heldLevels_swWrite, setAt, levelAt]
    exact if_pos (Nat.lt_of_lt_of_le inPulse (Nat.le_add_right _ _))
  · rw [if_neg inPulse, lineLevel,
      levelAt_setAt_shift (Nat.le_of_not_lt inPulse)]

/-- The writes behind a write begin later. -/
theorem Transmission.split_of_mem (positive : 0 < bitTime.toNat)
    (isWrite : one ∈ transmission.writes) :
    ∃ front behind,
      transmission.writes = front ++ one :: behind ∧
        ∀ later, later ∈ behind →
          later ∈ transmission.writes ∧ one.ends ≤ later.pulse ∧
            one.start < later.start := by
  obtain ⟨front, behind, shape⟩ := List.append_of_mem isWrite
  refine ⟨front, behind, shape, ?_⟩
  intro later member
  have inTurn := transmission.inTurn
  rw [shape, List.pairwise_append, List.pairwise_cons] at inTurn
  have isLater := inTurn.2.1.1 later member
  have ends := one.start_lt_ends positive
  have pulsed := later.pulsed
  refine ⟨?_, isLater, by omega⟩
  rw [shape]
  simp [member]

/-- Up to the next byte, the line has the levels of this one. -/
theorem Transmission.line_of_mem (positive : 0 < bitTime.toNat)
    (isWrite : one ∈ transmission.writes) (begun : one.start ≤ cycle)
    (notYet : ∀ later, later ∈ transmission.writes →
      one.start < later.start → cycle < later.pulse) :
    transmission.line sender cycle =
      lineLevel sender one.byte one.run (cycle - one.start) := by
  obtain ⟨front, behind, shape, others⟩ :=
    transmission.split_of_mem positive isWrite
  have pulsed := one.pulsed
  rw [transmission.line_of_split shape (by omega), if_neg (by omega)]
  intro later member
  obtain ⟨isLater, _, startsLater⟩ := others later member
  exact notYet later isLater startsLater

/-- So it does while the byte is written. -/
theorem Transmission.line_of_inside (positive : 0 < bitTime.toNat)
    (isWrite : one ∈ transmission.writes) (begun : one.start ≤ cycle)
    (inside : cycle < one.ends) :
    transmission.line sender cycle =
      lineLevel sender one.byte one.run (cycle - one.start) := by
  obtain ⟨front, behind, shape, others⟩ :=
    transmission.split_of_mem positive isWrite
  have pulsed := one.pulsed
  rw [transmission.line_of_split shape (by omega), if_neg (by omega)]
  intro later member
  have isBehind := (others later member).2.1
  omega

/-- The line is high between the pulse and the start level. -/
theorem Transmission.line_of_pulse (positive : 0 < bitTime.toNat)
    (isWrite : one ∈ transmission.writes) (begun : one.pulse ≤ cycle)
    (inPulse : cycle < one.start) :
    transmission.line sender cycle = true := by
  obtain ⟨front, behind, shape, others⟩ :=
    transmission.split_of_mem positive isWrite
  rw [transmission.line_of_split shape begun, if_pos inPulse]
  intro later member
  have isBehind := (others later member).2.1
  have ends := one.start_lt_ends positive
  omega

theorem Transmission.line_of_idle
    (waits : ∀ one, one ∈ transmission.writes → cycle < one.pulse) :
    transmission.line sender cycle = transmission.idle := by
  have future : ∀ entry,
      entry ∈ transmission.writes.flatMap (Write.levels sender) →
        cycle < entry.1 := by
    intro entry member
    obtain ⟨one, isWrite, inLevels⟩ := List.mem_flatMap.mp member
    have begins := waits one isWrite
    have bounds := Write.mem_levels inLevels
    omega
  exact @levelAt_append_of_future transmission.idle [] _ _ future

theorem lineLevel_start (sender : SwSerial) (byte : UInt8)
    (writer : WriterRun bitTime) (inStart : cycle < writer.set 1) :
    lineLevel sender byte writer cycle = false := by
  rw [lineLevel_of_place writer sender byte (Nat.zero_le 9)
    (Nat.zero_le cycle) (fun _ => inStart), heldLevels_swWrite]
  rfl

/-- From the stop level on the line stays high. -/
theorem lineLevel_stop (sender : SwSerial) (byte : UInt8)
    (writer : WriterRun bitTime) (isBehind : writer.set 9 ≤ cycle) :
    lineLevel sender byte writer cycle = true := by
  rw [lineLevel_of_place writer sender byte (Nat.le_refl 9) isBehind
    (fun more => absurd more (by decide)), heldLevels_swWrite]
  simp [lowestBits]

/-- If the line is low, it has been low from the beginning, or a byte is being
written. -/
theorem Transmission.low_cases
    (low : transmission.line sender cycle = false) :
    (transmission.idle = false ∧
        ∀ one, one ∈ transmission.writes → cycle < one.pulse) ∨
      ∃ one, one ∈ transmission.writes ∧ one.start ≤ cycle ∧
        cycle < one.start + one.run.set 9 := by
  have waitsFor {one : Write bitTime}
      (unobserved :
        (if one.pulse ≤ cycle then some one else none) = none) :
      cycle < one.pulse := by
    by_contra begun
    rw [if_pos (Nat.le_of_not_lt begun)] at unobserved
    cases unobserved
  cases isLatest :
      latest (fun one => if one.pulse ≤ cycle then some one else none)
        transmission.writes with
  | none =>
      have waits : ∀ one, one ∈ transmission.writes → cycle < one.pulse := by
        intro one isWrite
        exact waitsFor (latest_eq_none_iff.mp isLatest one isWrite)
      rw [transmission.line_of_idle waits] at low
      exact Or.inl ⟨low, waits⟩
  | some one =>
      obtain ⟨front, found, behind, shape, begun, later⟩ :=
        latest_eq_some_iff.mp isLatest
      by_cases isBegun : found.pulse ≤ cycle
      · rw [transmission.line_of_split shape isBegun] at low
        · by_cases inPulse : cycle < found.start
          · rw [if_pos inPulse] at low
            cases low
          · rw [if_neg inPulse] at low
            refine Or.inr ⟨found, ?_, Nat.le_of_not_lt inPulse, ?_⟩
            · rw [shape]
              simp
            · by_contra isBehind
              rw [lineLevel_stop sender found.byte found.run (by omega)]
                at low
              cases low
        · intro other member
          exact waitsFor (later other member)
      · rw [if_neg isBegun] at begun
        cases begun

/-! ## Edges -/

/-- The line falls where a byte begins. -/
theorem Transmission.falls (positive : 0 < bitTime.toNat)
    (isWrite : one ∈ transmission.writes) :
    transmission.line sender (one.start - 1) = true ∧
      transmission.line sender one.start = false := by
  have pulsed := one.pulsed
  have ends := one.start_lt_ends positive
  have startLasts : one.run.set 0 + bitTime.toNat ≤ one.run.set 1 :=
    one.run.set_succ (Nat.zero_le 9)
  constructor
  · exact transmission.line_of_pulse positive isWrite (by omega) (by omega)
  · rw [transmission.line_of_inside positive isWrite (Nat.le_refl _)
      (by omega), Nat.sub_self]
    exact lineLevel_start sender one.byte one.run (by omega)

/-- The falling edges of a byte come from its start level on. -/
def Write.burst (one : Write bitTime) : Nat × Nat :=
  (one.start, one.start + one.run.set 9)

theorem Transmission.bursts (positive : 0 < bitTime.toNat)
    (upright : self.invert = false) :
    Bursts (Interrupts self (transmission.line sender)) 0
      (transmission.writes.map Write.burst) where
  behind := by
    intro burst member
    obtain ⟨one, isWrite, rfl⟩ := List.mem_map.mp member
    have pulsed := one.pulsed
    exact Nat.zero_lt_of_lt pulsed
  isRequest := by
    intro burst member
    obtain ⟨one, isWrite, rfl⟩ := List.mem_map.mp member
    rw [interrupts_iff, upright]
    exact ⟨Nat.zero_lt_of_lt one.pulsed,
      transmission.falls positive isWrite⟩
  within := by
    intro cycle _ interrupts
    rw [interrupts_iff, upright] at interrupts
    obtain ⟨_, high, low⟩ := interrupts
    rcases transmission.low_cases low with ⟨idleLow, waits⟩ | inByte
    · have alsoLow : transmission.line sender (cycle - 1) = false := by
        rw [transmission.line_of_idle, idleLow]
        intro one isWrite
        exact Nat.lt_of_le_of_lt (Nat.sub_le _ _) (waits one isWrite)
      exact absurd (alsoLow.symm.trans high) Bool.false_ne_true
    · obtain ⟨one, isWrite, begun, inside⟩ := inByte
      exact ⟨one.burst, List.mem_map_of_mem isWrite, begun, inside⟩

theorem Transmission.ordered (positive : 0 < bitTime.toNat) :
    (transmission.writes.map Write.burst).Pairwise
      fun one later => one.1 < later.1 := by
  rw [List.pairwise_map]
  apply transmission.inTurn.imp
  intro one later isLater
  have ends := one.start_lt_ends positive
  have pulsed := later.pulsed
  rw [Write.burst, Write.burst]
  omega

/-- Behind a rising edge in a byte the line is high for a bit time: the edge is
where a level is set. -/
theorem Transmission.high_of_rises {look : Nat}
    (isWrite : one ∈ transmission.writes) (begun : one.start ≤ cycle)
    (inside : cycle < one.start + one.run.set 9)
    (low : transmission.line sender cycle = false)
    (high : transmission.line sender (cycle + 1) = true)
    (inTime : look < bitTime.toNat) :
    transmission.line sender (cycle + 1 + look) = true := by
  have positive : 0 < bitTime.toNat := Nat.zero_lt_of_lt inTime
  have ends := one.start_lt_ends positive
  obtain ⟨place, inRun, past, notYet⟩ :=
    one.run.exists_place (cycle - one.start)
  have notStop : place < 9 := by
    by_contra isStop
    have same : place = 9 := by
      omega
    rw [same] at past
    omega
  have inPlace := notYet notStop
  have nextInRun : place + 1 ≤ 9 := notStop
  have isLow := lineLevel_of_place one.run sender one.byte inRun past notYet
  rw [← transmission.line_of_inside positive isWrite begun (by omega),
    low] at isLow
  have isHigh : transmission.line sender (cycle + 1) =
      lineLevel sender one.byte one.run (cycle + 1 - one.start) :=
    transmission.line_of_inside positive isWrite (by omega) (by omega)
  -- the edge ends the level, and so the next one is set there
  have isNext : cycle + 1 - one.start = one.run.set (place + 1) := by
    by_contra stays
    rw [lineLevel_of_place one.run sender one.byte inRun (by omega)
      (fun _ => by omega), ← isLow, high] at isHigh
    cases isHigh
  have lasts : one.run.set (place + 1) + bitTime.toNat ≤
      one.run.set (place + 1 + 1) := one.run.set_succ nextInRun
  have inByte : one.run.set (place + 1 + 1) ≤ one.run.set 10 :=
    one.run.set_le (by omega) (Nat.le_refl 10)
  have isEnds : one.ends = one.start + one.run.set 10 := rfl
  rw [isNext, lineLevel_of_place one.run sender one.byte nextInRun
    (Nat.le_refl _) (fun _ => by omega), high] at isHigh
  rw [transmission.line_of_inside positive isWrite (by omega) (by omega),
    lineLevel_of_place one.run sender one.byte nextInRun (by omega)
      (fun _ => by omega)]
  exact isHigh.symm

end Line

/-! ## Runs of the handler -/

/-- A run of the handler: the edge that it is started by, and the cycle at
which its request is cleared. -/
structure Interrupt (times : BitTimes) where
  edge : Nat
  run : HandlerRun times
  finish : Nat
  goesOn : edge ≤ finish

def Interrupt.frame {times : BitTimes} (interrupt : Interrupt times)
    (line : Nat → Bool) : Frame :=
  interrupt.run.frame fun cycle => line (interrupt.edge + cycle)

/-- The looks of the run fall into the times of the levels of the byte, and
the run ends in front of the next byte. -/
structure Interrupt.Catches {times : BitTimes} (interrupt : Interrupt times)
    (transmission : Transmission times.bitTime) (one : Write times.bitTime) :
    Prop where
  looks : ∀ look, look ≤ 8 →
    one.start + one.run.set look ≤
        interrupt.edge + (interrupt.run.looks look).cycle ∧
      interrupt.edge + (interrupt.run.looks look).cycle <
        one.start + one.run.set (look + 1)
  stop : one.start + one.run.set 9 ≤
    interrupt.edge + (interrupt.run.looks 9).cycle
  ends : interrupt.edge + (interrupt.run.looks 9).cycle ≤ interrupt.finish
  inFront : ∀ later, later ∈ transmission.writes →
    one.start < later.start → interrupt.finish < later.pulse

/-- The first look comes within a bit time, and a run that is started with a
byte catches it. -/
structure Interrupt.InTime {times : BitTimes} (interrupt : Interrupt times)
    (transmission : Transmission times.bitTime) : Prop where
  startLook : (interrupt.run.looks 0).cycle < times.bitTime.toNat
  catches : ∀ one, one ∈ transmission.writes →
    interrupt.edge = one.pulse ∨ interrupt.edge = one.start →
      interrupt.Catches transmission one

/-- What a port receives of a byte: it is complemented if only one of the two
ports inverts. -/
def heardByte (sender self : SwSerial) (byte : UInt8) : UInt8 :=
  if sender.invert = self.invert then byte else ~~~byte

theorem writtenFrame_heard (sender self : SwSerial) (byte : UInt8) :
    (writtenFrame sender byte).byte self.invert =
      some (heardByte sender self byte) := by
  obtain ⟨started, stopped, sampled⟩ :=
    Frame.of_byte (writtenFrame_byte sender byte)
  rw [Frame.byte, if_pos ⟨started, stopped⟩, sampled, heardByte]
  cases sender.invert <;> cases self.invert <;> simp

section Runs

variable {times : BitTimes} {sender self : SwSerial}
  {transmission : Transmission times.bitTime}
  {interrupt : Interrupt times} {one : Write times.bitTime}

theorem Interrupt.Catches.frame_eq (positive : 0 < times.bitTime.toNat)
    (catches : interrupt.Catches transmission one)
    (isWrite : one ∈ transmission.writes) :
    interrupt.frame (transmission.line sender) =
      writtenFrame sender one.byte := by
  have atStop := catches.stop
  have level {look : Nat} (inRun : look ≤ 9) :
      transmission.line sender
          (interrupt.edge + (interrupt.run.looks look).cycle) =
        (heldLevels true (swWrite sender one.byte).1).getD look true := by
    have notBehind := interrupt.run.cycle_le inRun
    have begun : one.start ≤
        interrupt.edge + (interrupt.run.looks look).cycle := by
      by_cases isStop : look = 9
      · rw [isStop]
        omega
      · have atLook := (catches.looks look (by omega)).1
        omega
    rw [transmission.line_of_mem positive isWrite begun]
    · by_cases isStop : look = 9
      · subst isStop
        exact lineLevel_of_place one.run sender one.byte inRun (by omega)
          (fun more => absurd more (by decide))
      · obtain ⟨past, notYet⟩ := catches.looks look (by omega)
        exact lineLevel_of_place one.run sender one.byte inRun (by omega)
          (fun _ => by omega)
    · intro later isLater startsLater
      have inFront := catches.inFront later isLater startsLater
      have ends := catches.ends
      omega
  rw [frame, HandlerRun.frame, level (by decide), level (by decide)]
  have data : (fun bit : Fin 8 =>
      transmission.line sender
        (interrupt.edge + (interrupt.run.looks (bit.val + 1)).cycle)) =
      (writtenFrame sender one.byte).data := by
    funext bit
    exact level (by omega)
  rw [data]
  rfl

/-- A run that catches a byte brings it. -/
theorem Interrupt.Catches.brings (positive : 0 < times.bitTime.toNat)
    (catches : interrupt.Catches transmission one)
    (isWrite : one ∈ transmission.writes) :
    (interrupt.frame (transmission.line sender)).byte self.invert =
      some (heardByte sender self one.byte) := by
  rw [catches.frame_eq positive isWrite, writtenFrame_heard]

theorem Interrupt.InTime.endsBetween (inTime : interrupt.InTime transmission) :
    EndsBetween Interrupt.edge Interrupt.finish
      (transmission.writes.map Write.burst) interrupt := by
  intro burst member isBurst
  obtain ⟨one, isWrite, rfl⟩ := List.mem_map.mp member
  have catches := inTime.catches one isWrite (Or.inr isBurst)
  refine ⟨Nat.le_trans catches.stop catches.ends, ?_⟩
  intro other isOther startsLater
  obtain ⟨later, isLater, rfl⟩ := List.mem_map.mp isOther
  exact Nat.lt_trans (catches.inFront later isLater startsLater)
    later.pulsed

/-- The falling edges start a run for each byte and no other. -/
theorem Transmission.served_iff (positive : 0 < times.bitTime.toNat)
    (upright : self.invert = false) {all : List (Interrupt times)}
    (inTime : ∀ interrupt, interrupt ∈ all →
      interrupt.InTime transmission) :
    Served (Interrupts self (transmission.line sender)) Interrupt.edge
        Interrupt.finish 0 all ↔
      all.map Interrupt.edge = transmission.writes.map Write.start := by
  have comes : Bursts (Interrupts self (transmission.line sender)) 0
      (transmission.writes.map Write.burst) :=
    transmission.bursts positive upright
  have lasting : ∀ burst, burst ∈ transmission.writes.map Write.burst →
      burst.1 ≤ burst.2 := by
    intro burst member
    obtain ⟨one, _, rfl⟩ := List.mem_map.mp member
    exact Nat.le_add_right _ _
  rw [comes.served_iff (transmission.ordered positive) lasting
    fun interrupt member => (inTime interrupt member).endsBetween,
    List.map_map]
  rfl

/-- A run that starts with a rising edge brings nothing, unless the edge is the
pulse of the first byte on a low line. -/
theorem Interrupt.InTime.rises_cases (inTime : interrupt.InTime transmission)
    (inverts : self.invert = true)
    (requested :
      Interrupts self (transmission.line sender) interrupt.edge) :
    (transmission.idle = false ∧
        ∃ one, one ∈ transmission.writes ∧ interrupt.edge = one.pulse ∧
          ∀ other, other ∈ transmission.writes → one.pulse ≤ other.pulse) ∨
      (interrupt.frame (transmission.line sender)).byte true = none ∧
        ∃ one, one ∈ transmission.writes ∧ one.pulse < interrupt.edge := by
  rw [interrupts_iff, inverts] at requested
  obtain ⟨behind, low, high⟩ := requested
  obtain ⟨cycle, isCycle⟩ : ∃ cycle, interrupt.edge = cycle + 1 :=
    ⟨interrupt.edge - 1, by omega⟩
  rw [isCycle, Nat.add_sub_cancel] at low
  rw [isCycle] at high
  rcases transmission.low_cases low with ⟨idleLow, waits⟩ | inByte
  · refine Or.inl ⟨idleLow, ?_⟩
    by_contra noPulse
    have stillWaits : ∀ one, one ∈ transmission.writes →
        cycle + 1 < one.pulse := by
      intro one isWrite
      by_contra begun
      have waited := waits one isWrite
      refine noPulse ⟨one, isWrite, by omega, ?_⟩
      intro other isOther
      have otherWaits := waits other isOther
      omega
    rw [transmission.line_of_idle stillWaits, idleLow] at high
    cases high
  · obtain ⟨one, isWrite, begun, inside⟩ := inByte
    have startHigh :
        (interrupt.frame (transmission.line sender)).start = true := by
      rw [frame, isCycle]
      exact transmission.high_of_rises isWrite begun inside low high
        inTime.startLook
    have pulsed := one.pulsed
    refine Or.inr ⟨?_, one, isWrite, by omega⟩
    rw [Frame.byte, startHigh]
    exact if_neg fun both => Bool.noConfusion both.1

/-- No other run that starts with a rising edge brings a byte. -/
theorem Interrupt.InTime.brings_none (inTime : interrupt.InTime transmission)
    (inverts : self.invert = true)
    (requested :
      Interrupts self (transmission.line sender) interrupt.edge)
    (notFirst : transmission.idle = false →
      ∃ one, one ∈ transmission.writes ∧ one.pulse < interrupt.edge) :
    (interrupt.frame (transmission.line sender)).byte true = none := by
  rcases inTime.rises_cases inverts requested with isFirst | brings
  · obtain ⟨idleLow, first, _, isPulse, least⟩ := isFirst
    obtain ⟨one, isWrite, isLater⟩ := notFirst idleLow
    have atLeast := least one isWrite
    omega
  · exact brings.1

/-- On a low line the first run of an inverting port starts with the pulse of
the first byte. -/
theorem Transmission.first_rises (positive : 0 < times.bitTime.toNat)
    (inverts : self.invert = true) (idleLow : transmission.idle = false)
    {all : List (Interrupt times)}
    (inTime : ∀ interrupt, interrupt ∈ all →
      interrupt.InTime transmission)
    (served : Served (Interrupts self (transmission.line sender))
      Interrupt.edge Interrupt.finish 0 all) :
    all.head?.map Interrupt.edge =
      transmission.writes.head?.map Write.pulse := by
  cases shape : transmission.writes with
  | nil =>
      cases all with
      | nil =>
          rfl
      | cons interrupt later =>
          have requested := served.isRequest_of_mem List.mem_cons_self
          rcases (inTime interrupt List.mem_cons_self).rises_cases inverts
            requested with ⟨_, one, isWrite, _⟩ | ⟨_, one, isWrite, _⟩
          · rw [shape] at isWrite
            cases isWrite
          · rw [shape] at isWrite
            cases isWrite
  | cons one rest =>
      have isWrite : one ∈ transmission.writes := by
        rw [shape]
        exact List.mem_cons_self
      have begun := transmission.begun one isWrite
      have pulsed := one.pulsed
      have least (other : Write times.bitTime)
          (isOther : other ∈ transmission.writes) :
          one.pulse ≤ other.pulse := by
        have inTurn := transmission.inTurn
        rw [shape] at isOther inTurn
        rcases List.mem_cons.mp isOther with isOne | inRest
        · rw [isOne]
        · have isLater := (List.pairwise_cons.mp inTurn).1 other inRest
          have ends := one.start_lt_ends positive
          omega
      have requested :
          Interrupts self (transmission.line sender) one.pulse := by
        rw [interrupts_iff, inverts]
        refine ⟨begun, ?_, ?_⟩
        · rw [transmission.line_of_idle, idleLow]
          · rfl
          · intro other isOther
            have atLeast := least other isOther
            omega
        · exact transmission.line_of_pulse positive isWrite (Nat.le_refl _)
            pulsed
      cases served with
      | quiet noRequest =>
          exact absurd requested (noRequest one.pulse begun)
      | @serves _ interrupt later behind isRequest isFirst goesOn =>
          have atMost := isFirst one.pulse begun requested
          rw [List.head?_cons, List.head?_cons, Option.map_some,
            Option.map_some]
          congr 1
          rcases (inTime interrupt List.mem_cons_self).rises_cases inverts
            isRequest with
            ⟨_, found, isFound, isPulse, _⟩ | ⟨_, found, isFound, isBehind⟩
          · have atLeast := least found isFound
            omega
          · have atLeast := least found isFound
            omega

end Runs

/-! ## Every schedule -/

/-- A run of the handler, or a step of the application. -/
inductive LinkEvent (times : BitTimes) where
  | handles (interrupt : Interrupt times)
  | task

def LinkEvent.begun {times : BitTimes} :
    LinkEvent times → Option (Interrupt times)
  | .handles interrupt => some interrupt
  | .task => none

def LinkEvent.appEvent {times : BitTimes} (line : Nat → Bool) :
    LinkEvent times → AppEvent
  | .handles interrupt => .frame (interrupt.frame line)
  | .task => .task

/-- The bytes that the port catches. -/
def Transmission.caught {bitTime : BitVec 32}
    (transmission : Transmission bitTime) (self : SwSerial) :
    List (Write bitTime) :=
  if self.invert then
    if transmission.idle then [] else transmission.writes.take 1
  else transmission.writes

/-- What the port receives of a transmission. -/
def receivedBytes (sender self : SwSerial) {bitTime : BitVec 32}
    (transmission : Transmission bitTime) : List UInt8 :=
  (transmission.caught self).map fun one => heardByte sender self one.byte

theorem arrivedBytes_appEvent {times : BitTimes} (invert : Bool)
    (line : Nat → Bool) (history : List (LinkEvent times)) :
    arrivedBytes invert (history.map (LinkEvent.appEvent line)) =
      (history.filterMap LinkEvent.begun).filterMap fun interrupt =>
        (interrupt.frame line).byte invert := by
  rw [arrivedBytes, List.filterMap_map, List.filterMap_filterMap]
  congr 1
  funext event
  cases event <;> rfl

section Schedules

variable {times : BitTimes} {sender self : SwSerial}
  {transmission : Transmission times.bitTime}
  {begun all : List (Interrupt times)}

/-- Each run of an upright port brings its byte. -/
theorem filterMap_of_upright (positive : 0 < times.bitTime.toNat)
    (upright : self.invert = false)
    (inTime : ∀ interrupt, interrupt ∈ all →
      interrupt.InTime transmission)
    (served : Served (Interrupts self (transmission.line sender))
      Interrupt.edge Interrupt.finish 0 all)
    (soFar : begun <+: all) :
    (begun.filterMap fun interrupt =>
        (interrupt.frame (transmission.line sender)).byte self.invert) =
      (receivedBytes sender self transmission).take begun.length := by
  have edges := (transmission.served_iff positive upright inTime).mp served
  have sameEdges : begun.map Interrupt.edge =
      (transmission.writes.take begun.length).map Write.start := by
    rw [List.map_take, ← edges, ← List.map_take,
      ← List.prefix_iff_eq_take.mp soFar]
  have isCaught : transmission.caught self = transmission.writes := by
    rw [Transmission.caught, upright]
    rfl
  rw [receivedBytes, isCaught, ← List.map_take]
  apply filterMap_of_map_eq sameEdges
  intro interrupt member one isTaken isStart
  have isWrite := List.mem_of_mem_take isTaken
  have catches := (inTime interrupt (soFar.subset member)).catches one
    isWrite (Or.inr isStart)
  exact catches.brings positive isWrite

/-- The runs of an inverting port behind its first one start behind a pulse, and
so bring nothing. -/
theorem later_brings_none (inverts : self.invert = true)
    {first : Interrupt times} {later : List (Interrupt times)}
    (inTime : ∀ interrupt, interrupt ∈ first :: later →
      interrupt.InTime transmission)
    (served : Served (Interrupts self (transmission.line sender))
      Interrupt.edge Interrupt.finish 0 (first :: later)) :
    ∀ interrupt, interrupt ∈ later →
      (interrupt.frame (transmission.line sender)).byte true = none := by
  obtain _ | ⟨behind, isRequest, isFirst, goesOn⟩ := served
  intro interrupt member
  have isBehind :=
    goesOn.lt_begins (fun interrupt _ => interrupt.goesOn) member
  have notBefore := first.goesOn
  apply (inTime interrupt (List.mem_cons_of_mem first member)).brings_none
    inverts (goesOn.isRequest_of_mem member)
  intro _
  rcases (inTime first List.mem_cons_self).rises_cases inverts isRequest with
    ⟨_, one, isWrite, isPulse, _⟩ | ⟨_, one, isWrite, isLater⟩
  · exact ⟨one, isWrite, by omega⟩
  · exact ⟨one, isWrite, by omega⟩

/-- Of the runs of an inverting port only the first one may bring a byte. -/
theorem filterMap_of_inverting (positive : 0 < times.bitTime.toNat)
    (inverts : self.invert = true)
    (inTime : ∀ interrupt, interrupt ∈ all →
      interrupt.InTime transmission)
    (served : Served (Interrupts self (transmission.line sender))
      Interrupt.edge Interrupt.finish 0 all)
    (soFar : begun <+: all) :
    (begun.filterMap fun interrupt =>
        (interrupt.frame (transmission.line sender)).byte self.invert) =
      (receivedBytes sender self transmission).take begun.length := by
  rw [inverts]
  cases begun with
  | nil =>
      rfl
  | cons first rest =>
      obtain ⟨unbegun, isAll⟩ := soFar
      rw [List.cons_append] at isAll
      subst isAll
      have firstInTime := inTime first List.mem_cons_self
      have restNone : (rest.filterMap fun interrupt =>
          (interrupt.frame (transmission.line sender)).byte true) = [] := by
        rw [List.filterMap_eq_nil_iff]
        intro interrupt member
        exact later_brings_none inverts inTime served interrupt
          (List.mem_append_left unbegun member)
      cases idle : transmission.idle with
      | true =>
          have firstNone := firstInTime.brings_none inverts
            (served.isRequest_of_mem List.mem_cons_self)
            fun idleLow => Bool.noConfusion (idle.symm.trans idleLow)
          simp only [List.filterMap_cons, firstNone, restNone]
          rw [receivedBytes, Transmission.caught, inverts, idle]
          rfl
      | false =>
          have isPulse := transmission.first_rises positive inverts idle
            inTime served
          cases shape : transmission.writes with
          | nil =>
              rw [shape] at isPulse
              cases isPulse
          | cons one writes =>
              rw [shape] at isPulse
              have isWrite : one ∈ transmission.writes := by
                rw [shape]
                exact List.mem_cons_self
              have catches := firstInTime.catches one isWrite
                (Or.inl (Option.some_inj.mp isPulse))
              have brings := @Interrupt.Catches.brings _ sender self _ _ _
                positive catches isWrite
              rw [inverts] at brings
              simp only [List.filterMap_cons, brings, restNone]
              rw [receivedBytes, Transmission.caught, inverts, idle, shape]
              simp

/-- The runs so far have brought a byte each, or nothing. -/
theorem filterMap_begun (positive : 0 < times.bitTime.toNat)
    (inTime : ∀ interrupt, interrupt ∈ all →
      interrupt.InTime transmission)
    (served : Served (Interrupts self (transmission.line sender))
      Interrupt.edge Interrupt.finish 0 all)
    (soFar : begun <+: all) :
    (begun.filterMap fun interrupt =>
        (interrupt.frame (transmission.line sender)).byte self.invert) =
      (receivedBytes sender self transmission).take begun.length := by
  cases inverts : self.invert with
  | false =>
      rw [← inverts]
      exact filterMap_of_upright positive inverts inTime served soFar
  | true =>
      rw [← inverts]
      exact filterMap_of_inverting positive inverts inTime served soFar

/-- For every size of the ring, every transmission and every interleaving of
the application with the runs that the edges start, as long as these are in
time: the runs start where the bytes do, the application prints in order what
has arrived, and what has arrived behind each run is what was written up to
there.  A port that inverts has received no byte but the first, and that one
only if the line was low in front of it. -/
theorem transmission_is_printed {buffSize : BitVec 32}
    (sized : 1 ≤ buffSize.toNat) (small : buffSize.toNat < 2 ^ 31)
    (invert : Bool) (memory : Buffer buffSize.toNat)
    (created : swNew invert buffSize true (some memory) = some self)
    (positive : 0 < times.bitTime.toNat)
    (inTime : ∀ interrupt, interrupt ∈ all →
      interrupt.InTime transmission)
    (served : Served (Interrupts self (transmission.line sender))
      Interrupt.edge Interrupt.finish 0 all)
    (history : List (LinkEvent times))
    (soFar : history.filterMap LinkEvent.begun <+: all) :
    (invert = false →
      all.map Interrupt.edge = transmission.writes.map Write.start) ∧
    (invert = true → transmission.idle = false →
      all.head?.map Interrupt.edge =
        transmission.writes.head?.map Write.pulse) ∧
    ∃ app,
      appAfter self
          (history.map (LinkEvent.appEvent (transmission.line sender))) =
        .ok app ∧
        PrintsInOrder invert self
          (history.map (LinkEvent.appEvent (transmission.line sender)))
          app ∧
        arrivedBytes invert
            (history.map
              (LinkEvent.appEvent (transmission.line sender))) =
          (receivedBytes sender self transmission).take
            (history.filterMap LinkEvent.begun).length := by
  have sameInvert : self.invert = invert := by
    cases created
    rfl
  obtain ⟨app, model, reached, prints⟩ := exists_prints sized small created
    (history.map (LinkEvent.appEvent (transmission.line sender)))
  refine ⟨?_, ?_, app, reached, prints.inOrder reached, ?_⟩
  · intro upright
    exact (transmission.served_iff positive (sameInvert.trans upright)
      inTime).mp served
  · intro inverts idleLow
    exact transmission.first_rises positive (sameInvert.trans inverts)
      idleLow inTime served
  · rw [arrivedBytes_appEvent, ← sameInvert]
    exact filterMap_begun positive inTime served soFar

end Schedules

/-! ## Two bytes -/

def uprightPort : SwSerial where
  buffSize := 3
  invert := false
  overflow := false
  inPos := 0
  outPos := 0
  buffer := [0, 0, 0]

/-- At 160 MHz and 115200 baud, with the levels of `lateWriter`. -/
def lateWrite (byte : UInt8) (pulse : Nat) :
    Write (swOpen 160000000 115200).bitTime where
  byte := byte
  pulse := pulse
  start := pulse + 10
  run := lateWriter (swOpen 160000000 115200).bitTime
  pulsed := Nat.lt_add_of_pos_right (by decide)

/-- A byte takes 14090 cycles. -/
def twoBytes : Transmission (swOpen 160000000 115200).bitTime where
  idle := true
  writes := [lateWrite 65 990, lateWrite 66 20000]
  begun := by decide
  inTurn := by decide

/-- The stop level is sampled 12797 cycles behind the edge. -/
def lateInterrupt (edge : Nat) : Interrupt (swOpen 160000000 115200) where
  edge := edge
  run := lateRun (swOpen 160000000 115200)
  finish := edge + 13000
  goesOn := Nat.le_add_right edge 13000

theorem lateInterrupt_catches {byte : UInt8} {pulse : Nat}
    (inFront : ∀ later, later ∈ twoBytes.writes →
      pulse + 10 < later.start → pulse + 10 + 13000 < later.pulse) :
    (lateInterrupt (pulse + 10)).Catches twoBytes
      (lateWrite byte pulse) := by
  have inPlace : (lateRun (swOpen 160000000 115200)).InPlace
      (lateWriter (swOpen 160000000 115200).bitTime) := by
    rw [HandlerRun.InPlace]
    decide
  have ends : ((lateRun (swOpen 160000000 115200)).looks 9).cycle ≤
      13000 := by
    decide
  obtain ⟨looks, stop⟩ := inPlace
  refine ⟨?_, ?_, ?_, inFront⟩
  · intro look atMost
    obtain ⟨past, notYet⟩ := looks look atMost
    exact ⟨Nat.add_le_add_left past _, Nat.add_lt_add_left notYet _⟩
  · exact Nat.add_le_add_left stop _
  · exact Nat.add_le_add_left ends _

theorem twoBytes_inTime (interrupt : Interrupt (swOpen 160000000 115200))
    (member : interrupt ∈ [lateInterrupt 1000, lateInterrupt 20010]) :
    interrupt.InTime twoBytes := by
  rw [List.mem_pair] at member
  rcases member with isFirst | isSecond
  · subst isFirst
    refine ⟨by decide, ?_⟩
    intro one isWrite isEdge
    rcases List.mem_pair.mp isWrite with isOne | isOther
    · rw [isOne]
      exact @lateInterrupt_catches 65 990 (by decide)
    · rw [isOther] at isEdge
      exact absurd isEdge (by decide)
  · subst isSecond
    refine ⟨by decide, ?_⟩
    intro one isWrite isEdge
    rcases List.mem_pair.mp isWrite with isOther | isOne
    · rw [isOther] at isEdge
      exact absurd isEdge (by decide)
    · rw [isOne]
      exact @lateInterrupt_catches 66 20000 (by decide)

/-- The application begins to read between the two bytes. -/
def twoInterrupts : List (LinkEvent (swOpen 160000000 115200)) :=
  [.task, .handles (lateInterrupt 1000), .task, .task,
    .handles (lateInterrupt 20010), .task, .task]

theorem transmission_is_printed_twoBytes :
    ∃ app,
      appAfter uprightPort
          (twoInterrupts.map
            (LinkEvent.appEvent (twoBytes.line uprightPort))) = .ok app ∧
        PrintsInOrder false uprightPort
          (twoInterrupts.map
            (LinkEvent.appEvent (twoBytes.line uprightPort))) app ∧
        arrivedBytes false
            (twoInterrupts.map
              (LinkEvent.appEvent (twoBytes.line uprightPort))) =
          [65, 66] := by
  have served : Served (Interrupts uprightPort (twoBytes.line uprightPort))
      Interrupt.edge Interrupt.finish 0
      [lateInterrupt 1000, lateInterrupt 20010] :=
    (twoBytes.served_iff (by decide) rfl twoBytes_inTime).mpr rfl
  exact (@transmission_is_printed (swOpen 160000000 115200) uprightPort
    uprightPort twoBytes [lateInterrupt 1000, lateInterrupt 20010] 3
    (by decide) (by decide) false (Buffer.zero 3) rfl (by decide)
    twoBytes_inTime served twoInterrupts (List.prefix_refl _)).2.2

end Esp32Source.Uart
