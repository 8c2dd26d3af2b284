import Esp32Source.Machine.Counter
import Esp32Source.Uart.Line
import Mathlib.Data.Nat.Find

/-!
# Bit times

`sw_open` divides the clock frequency by the baud rate, and takes from that bit
time the waits in front of the start sample and of the stop sample.
`sw_rx_handler` waits and looks at the pin ten times in a row, and
`WaitBitTime` compares readings of the 32-bit cycle counter.

The cycles at which the counter and the pins are used are given with a run of
`sw_write` and a run of the handler.  Both count from the falling edge of the
start bit.  A wait that wraps with the counter is never too short, so that no
level is shorter than a bit time and the handler is never early; how late the
two are decides whether the handler receives what was written.
-/

namespace Esp32Source.Uart

open Machine

/-- `bitTime`, `rx_start_time` and `rx_end_time` -/
structure BitTimes where
  bitTime : BitVec 32
  rxStartTime : BitVec 32
  rxEndTime : BitVec 32
  deriving DecidableEq, Repr

/-- The times that `sw_open` sets, with the answer of `esp_clk_cpu_freq`.  The
cases of 9600 and of every other rate are the same in the source. -/
def swOpen (cpuFreq baudRate : BitVec 32) : BitTimes :=
  let bitTime := cpuFreq / baudRate
  if baudRate = 115200 then
    { bitTime, rxStartTime := bitTime / 256,
      rxEndTime := bitTime * 127 / 256 }
  else
    { bitTime, rxStartTime := bitTime / 9, rxEndTime := bitTime * 8 / 9 }

/-! ## Waits -/

/-- A `WaitBitTime` and the use of the pin behind it: the cycles at which the
counter is read first and in the loop, and the cycle at which the pin is read
or set. -/
structure PinUse where
  start : Nat
  readings : List Nat
  cycle : Nat
  deriving DecidableEq, Repr

/-- The use comes behind the cycle `previous` and waits for `wait`. -/
structure PinUse.Runs (pinUse : PinUse) (wait : BitVec 32)
    (previous : Nat) : Prop where
  behind : previous ≤ pinUse.start
  ordered : ∀ reading, reading ∈ pinUse.readings → pinUse.start ≤ reading
  ended : ∃ stop,
    waitEnd wait pinUse.start pinUse.readings = some stop ∧
      stop ≤ pinUse.cycle

/-- The pin is not used before the wait is over. -/
theorem PinUse.Runs.not_early {pinUse : PinUse} {wait : BitVec 32}
    {previous : Nat} (runs : pinUse.Runs wait previous) :
    previous + wait.toNat ≤ pinUse.cycle := by
  obtain ⟨stop, ends, isBehind⟩ := runs.ended
  have notEarly := (waitEnd_not_early runs.ordered ends).2
  have behind := runs.behind
  omega

/-! ## A run of the writer -/

/-- Where the ten levels of a byte are set, and where `sw_write` goes on
behind the last one. -/
def setTimes (sets : Nat → PinUse) : Nat → Nat
  | 0 => 0
  | place + 1 => (sets place).cycle

/-- The waits of `sw_write`, from the one behind the start level on. -/
structure WriterRun (bitTime : BitVec 32) where
  sets : Nat → PinUse
  waits : ∀ place, place ≤ 9 →
    (sets place).Runs bitTime (setTimes sets place)

def WriterRun.set {bitTime : BitVec 32} (writer : WriterRun bitTime) :
    Nat → Nat :=
  setTimes writer.sets

/-- How much later a level is set than in a run that loses no time. -/
def WriterRun.lag {bitTime : BitVec 32} (writer : WriterRun bitTime)
    (place : Nat) : Nat :=
  writer.set place - place * bitTime.toNat

/-- Levels with the cycles at which they are set. -/
def setAt (times : Nat → Nat) : List Bool → List (Nat × Bool)
  | [] => []
  | level :: levels =>
      (times 0, level) :: setAt (fun place => times (place + 1)) levels

/-- The level at a cycle, which was set last by then. -/
def levelAt (level : Bool) : List (Nat × Bool) → Nat → Bool
  | [], _ => level
  | (time, next) :: later, cycle =>
      if cycle < time then level else levelAt next later cycle

/-- The line while a byte is written and behind it. -/
def lineLevel (sender : SwSerial) (byte : UInt8) {bitTime : BitVec 32}
    (writer : WriterRun bitTime) (cycle : Nat) : Bool :=
  levelAt true
    (setAt writer.set (heldLevels true (swWrite sender byte).1)) cycle

/-! ## A run of the handler -/

/-- What the handler waits for in front of its looks at the start level, the
eight data levels and the stop level. -/
def BitTimes.wait (times : BitTimes) (look : Nat) : BitVec 32 :=
  if look = 0 then times.rxStartTime
  else if look ≤ 8 then times.bitTime
  else times.rxEndTime

/-- A run that is entered some cycles behind the falling edge. -/
structure HandlerRun (times : BitTimes) where
  entered : Nat
  looks : Nat → PinUse
  first : (looks 0).Runs (times.wait 0) entered
  next : ∀ look, look < 9 →
    (looks (look + 1)).Runs (times.wait (look + 1)) (looks look).cycle

/-- The levels that a run samples. -/
def HandlerRun.frame {times : BitTimes} (run : HandlerRun times)
    (level : Nat → Bool) : Frame where
  start := level (run.looks 0).cycle
  data bit := level (run.looks (bit.val + 1)).cycle
  stop := level (run.looks 9).cycle

/-- Whatever byte is written, the run receives it. -/
def ReceivesEvery (sender : SwSerial) {times : BitTimes}
    (writer : WriterRun times.bitTime) (run : HandlerRun times) : Prop :=
  ∀ byte,
    (run.frame (lineLevel sender byte writer)).byte sender.invert =
      some byte

/-! ## Lateness -/

/-- The cycle of a look in a run that starts at the edge and loses no time. -/
def BitTimes.due (times : BitTimes) (look : Nat) : Nat :=
  if look ≤ 8 then times.rxStartTime.toNat + look * times.bitTime.toNat
  else times.rxStartTime.toNat + 8 * times.bitTime.toNat +
    times.rxEndTime.toNat

/-- How much later than that the look comes. -/
def HandlerRun.late {times : BitTimes} (run : HandlerRun times)
    (look : Nat) : Nat :=
  (run.looks look).cycle - times.due look

section Run

variable {times : BitTimes} (run : HandlerRun times)

theorem BitTimes.due_succ {look : Nat} (below : look < 9) :
    times.due (look + 1) =
      times.due look + (times.wait (look + 1)).toNat := by
  have atMost : look ≤ 8 := by
    omega
  rw [due, due, wait, if_neg (Nat.succ_ne_zero look), if_pos atMost]
  by_cases isData : look + 1 ≤ 8
  · rw [if_pos isData, if_pos isData, Nat.succ_mul, Nat.add_assoc]
  · have isLast : look = 8 := by
      omega
    rw [if_neg isData, if_neg isData, isLast]

/-- No look is early, and none makes up for the lateness of another. -/
theorem HandlerRun.late_succ {look : Nat} (below : look < 9)
    (notEarly : times.due look ≤ (run.looks look).cycle) :
    times.due (look + 1) ≤ (run.looks (look + 1)).cycle ∧
      run.late look ≤ run.late (look + 1) := by
  have waits := (run.next look below).not_early
  have due := times.due_succ below
  rw [late, late]
  omega

theorem HandlerRun.not_early {look : Nat} (inRun : look ≤ 9) :
    times.due look ≤ (run.looks look).cycle := by
  induction look with
  | zero =>
      have waits := run.first.not_early
      rw [BitTimes.wait, if_pos rfl] at waits
      rw [BitTimes.due, if_pos (Nat.zero_le 8)]
      omega
  | succ look inductionHypothesis =>
      exact (run.late_succ (by omega) (inductionHypothesis (by omega))).1

theorem HandlerRun.late_le {look : Nat} (inRun : look ≤ 9) :
    run.late look ≤ run.late 9 := by
  induction inRun using Nat.decreasingInduction with
  | self =>
      exact Nat.le_refl _
  | of_succ look below inductionHypothesis =>
      have notEarly : times.due look ≤ (run.looks look).cycle :=
        run.not_early (by omega)
      exact Nat.le_trans (run.late_succ (by omega) notEarly).2
        inductionHypothesis

theorem HandlerRun.cycle_le {look : Nat} (inRun : look ≤ 9) :
    (run.looks look).cycle ≤ (run.looks 9).cycle := by
  induction inRun using Nat.decreasingInduction with
  | self =>
      exact Nat.le_refl _
  | of_succ look below inductionHypothesis =>
      have waits := (run.next look below).not_early
      omega

theorem HandlerRun.cycle_eq {look : Nat} (inRun : look ≤ 9) :
    (run.looks look).cycle = times.due look + run.late look := by
  have notEarly := run.not_early inRun
  rw [late]
  omega

end Run

section Writer

variable {bitTime : BitVec 32} (writer : WriterRun bitTime)

/-- Every level lasts a bit time at least. -/
theorem WriterRun.set_succ {place : Nat} (inRun : place ≤ 9) :
    writer.set place + bitTime.toNat ≤ writer.set (place + 1) :=
  (writer.waits place inRun).not_early

theorem WriterRun.set_le {earlier place : Nat} (atMost : earlier ≤ place)
    (inRun : place ≤ 10) : writer.set earlier ≤ writer.set place := by
  induction place, atMost using Nat.le_induction with
  | base =>
      exact Nat.le_refl _
  | succ place atMost inductionHypothesis =>
      have earlierSet := inductionHypothesis (by omega)
      have lasts : writer.set place + bitTime.toNat ≤
          writer.set (place + 1) := writer.set_succ (by omega)
      omega

theorem WriterRun.mul_le_set {place : Nat} (inRun : place ≤ 10) :
    place * bitTime.toNat ≤ writer.set place := by
  induction place with
  | zero =>
      rw [Nat.zero_mul]
      exact Nat.zero_le _
  | succ place inductionHypothesis =>
      have earlierSet := inductionHypothesis (by omega)
      have lasts : writer.set place + bitTime.toNat ≤
          writer.set (place + 1) := writer.set_succ (by omega)
      rw [Nat.succ_mul]
      omega

theorem WriterRun.set_eq {place : Nat} (inRun : place ≤ 10) :
    writer.set place = place * bitTime.toNat + writer.lag place := by
  have atLeast := writer.mul_le_set inRun
  rw [lag]
  omega

/-- The lag does not get less. -/
theorem WriterRun.lag_le {place : Nat} (inRun : place ≤ 9) :
    writer.lag place ≤ writer.lag 9 := by
  induction inRun using Nat.decreasingInduction with
  | self =>
      exact Nat.le_refl _
  | of_succ place below inductionHypothesis =>
      have lasts : writer.set place + bitTime.toNat ≤
          writer.set (place + 1) := writer.set_succ (by omega)
      rw [writer.set_eq (by omega), writer.set_eq (by omega),
        Nat.succ_mul] at lasts
      omega

/-- A cycle lies in the time of one level. -/
theorem WriterRun.exists_place (cycle : Nat) :
    ∃ place, place ≤ 9 ∧ writer.set place ≤ cycle ∧
      (place < 9 → cycle < writer.set (place + 1)) := by
  have starts : writer.set 0 ≤ cycle := Nat.zero_le cycle
  refine ⟨Nat.findGreatest (fun place => writer.set place ≤ cycle) 9,
    Nat.findGreatest_le 9, ?_, ?_⟩
  · exact @Nat.findGreatest_spec 0 (fun place => writer.set place ≤ cycle) _
      9 (Nat.zero_le 9) starts
  · intro below
    exact Nat.lt_of_not_le (@Nat.findGreatest_is_greatest _
      (fun place => writer.set place ≤ cycle) _ 9 (Nat.lt_succ_self _) below)

theorem levelAt_setAt {times : Nat → Nat} {levels : List Bool}
    {level : Bool} {place cycle : Nat} (inside : place < levels.length)
    (past : ∀ earlier, earlier ≤ place → times earlier ≤ cycle)
    (notYet : place + 1 < levels.length → cycle < times (place + 1)) :
    levelAt level (setAt times levels) cycle = levels.getD place true := by
  induction levels generalizing times level place with
  | nil =>
      cases inside
  | cons next levels inductionHypothesis =>
      rw [setAt, levelAt, if_neg (Nat.not_lt.mpr (past 0 (Nat.zero_le _)))]
      cases place with
      | zero =>
          rw [List.getD_cons_zero]
          cases levels with
          | nil =>
              rfl
          | cons later levels =>
              rw [setAt, levelAt, if_pos]
              exact notYet (by simp)
      | succ place =>
          rw [List.getD_cons_succ]
          exact inductionHypothesis (Nat.lt_of_succ_lt_succ inside)
            (fun earlier atMost => past (earlier + 1) (by omega))
            (fun more => notYet (Nat.succ_lt_succ more))

theorem length_heldLevels_swWrite (sender : SwSerial) (byte : UInt8) :
    (heldLevels true (swWrite sender byte).1).length = 10 := by
  rw [heldLevels_swWrite, List.length_cons, List.length_append, lowestBits,
    List.length_map, List.length_range, List.length_singleton]

/-- While a level lasts, the line has it. -/
theorem lineLevel_of_place (sender : SwSerial) (byte : UInt8)
    {place cycle : Nat} (inRun : place ≤ 9)
    (past : writer.set place ≤ cycle)
    (notYet : place < 9 → cycle < writer.set (place + 1)) :
    lineLevel sender byte writer cycle =
      (heldLevels true (swWrite sender byte).1).getD place true := by
  have length := length_heldLevels_swWrite sender byte
  apply levelAt_setAt
  · omega
  · intro earlier atMost
    exact Nat.le_trans (writer.set_le atMost (by omega)) past
  · intro more
    exact notYet (by omega)

end Writer

/-! ## What is received -/

/-- The bits of a sampled byte are the data levels. -/
theorem getLsbD_sampledByte (data : Fin 8 → Bool) (bit : Fin 8) :
    (sampledByte data).toBitVec.getLsbD bit.val = data bit := by
  rw [sampledByte, getLsbD_shiftAll
    (fun received level bit below => getLsbD_shiftIn received level below)
    _ _ bit.isLt, List.length_ofFn, if_neg (by omega), Nat.add_sub_cancel,
    List.getD_eq_getElem?_getD, List.getElem?_ofFn, dif_pos bit.isLt,
    Option.getD_some]

/-- A frame that brings a byte has a low start level, a high stop level and
the written bits. -/
theorem Frame.of_byte {invert : Bool} {frame : Frame} {byte : UInt8}
    (brings : frame.byte invert = some byte) :
    frame.start = false ∧ frame.stop = true ∧
      sampledByte frame.data = if invert then ~~~byte else byte := by
  rw [Frame.byte] at brings
  by_cases wellFormed : frame.start = false ∧ frame.stop = true
  · rw [if_pos wellFormed] at brings
    refine ⟨wellFormed.1, wellFormed.2, ?_⟩
    rw [← Option.some_inj.mp brings]
    cases invert with
    | false =>
        rfl
    | true =>
        exact UInt8.not_not.symm
  · rw [if_neg wellFormed] at brings
    cases brings

/-- The byte that is written with these data levels. -/
def shownAs (sender : SwSerial) (levels : UInt8) : UInt8 :=
  if sender.invert then ~~~levels else levels

theorem written_shownAs (sender : SwSerial) (levels : UInt8) :
    (if sender.invert then ~~~shownAs sender levels
      else shownAs sender levels) = levels := by
  rw [shownAs]
  cases sender.invert with
  | false =>
      rfl
  | true =>
      exact UInt8.not_not

theorem heldLevels_shownAs (sender : SwSerial) (levels : UInt8) :
    heldLevels true (swWrite sender (shownAs sender levels)).1 =
      false :: (lowestBits 8 levels ++ [true]) := by
  rw [heldLevels_swWrite, written_shownAs]

section Receives

variable {times : BitTimes} {writer : WriterRun times.bitTime}
  (run : HandlerRun times) (sender : SwSerial)

/-- The looks fall into the time of their own levels. -/
def HandlerRun.InPlace {times : BitTimes} (run : HandlerRun times)
    (writer : WriterRun times.bitTime) : Prop :=
  (∀ look, look ≤ 8 →
    writer.set look ≤ (run.looks look).cycle ∧
      (run.looks look).cycle < writer.set (look + 1)) ∧
    writer.set 9 ≤ (run.looks 9).cycle

/-- Such a run receives the byte. -/
theorem HandlerRun.InPlace.receives {run : HandlerRun times}
    (inPlace : run.InPlace writer) : ReceivesEvery sender writer run := by
  intro byte
  have level {look : Nat} (inRun : look ≤ 9) :
      lineLevel sender byte writer (run.looks look).cycle =
        (heldLevels true (swWrite sender byte).1).getD look true := by
    by_cases isStop : look = 9
    · subst isStop
      exact lineLevel_of_place writer sender byte (by decide) inPlace.2
        (fun more => absurd more (by decide))
    · obtain ⟨past, notYet⟩ := inPlace.1 look (by omega)
      exact lineLevel_of_place writer sender byte inRun past
        (fun _ => notYet)
  have sameFrame : run.frame (lineLevel sender byte writer) =
      writtenFrame sender byte := by
    rw [HandlerRun.frame, level (by decide), level (by decide)]
    have data : (fun bit : Fin 8 =>
        lineLevel sender byte writer (run.looks (bit.val + 1)).cycle) =
        (writtenFrame sender byte).data := by
      funext bit
      exact level (by omega)
    rw [data]
    rfl
  rw [sameFrame]
  exact writtenFrame_byte sender byte

/-- A look falls into the time of its own level if three kinds of bytes are
received: the one with all data levels high, the one with all of them low, and
those with one high level. -/
theorem HandlerRun.place_eq (receives : ReceivesEvery sender writer run)
    {look place : Nat} (lookInRun : look ≤ 9) (inRun : place ≤ 9)
    (past : writer.set place ≤ (run.looks look).cycle)
    (notYet : place < 9 →
      (run.looks look).cycle < writer.set (place + 1)) : place = look := by
  have level (levels : UInt8) :
      lineLevel sender (shownAs sender levels) writer
          (run.looks look).cycle =
        (false :: (lowestBits 8 levels ++ [true])).getD place true := by
    rw [lineLevel_of_place writer sender _ inRun past notYet,
      heldLevels_shownAs]
  have low : ∀ place : Fin 10,
      (false :: (lowestBits 8 0 ++ [true])).getD place.val true =
        decide (place.val = 9) := by
    decide
  have high : ∀ place : Fin 10,
      (false :: (lowestBits 8 0xFF ++ [true])).getD place.val true =
        decide (place.val ≠ 0) := by
    decide
  have single : ∀ (bit : Fin 8) (place : Fin 10),
      (false :: (lowestBits 8 (1 <<< UInt8.ofNat bit.val) ++
          [true])).getD place.val true =
        decide (place.val = bit.val + 1 ∨ place.val = 9) := by
    decide
  have alone : ∀ bit : Fin 8,
      (1 <<< UInt8.ofNat bit.val : UInt8).toBitVec.getLsbD bit.val =
        true := by
    decide
  have isLow := level 0
  rw [low ⟨place, by omega⟩] at isLow
  obtain ⟨_, lowStop, lowData⟩ :=
    Frame.of_byte (receives (shownAs sender 0))
  rw [written_shownAs] at lowData
  rcases Nat.eq_zero_or_pos look with isStart | isBehind
  · have isHigh := level 0xFF
    rw [high ⟨place, by omega⟩] at isHigh
    obtain ⟨started, _, _⟩ :=
      Frame.of_byte (receives (shownAs sender 0xFF))
    subst isStart
    have isFalse : decide (place ≠ 0) = false := isHigh.symm.trans started
    rw [decide_eq_false_iff_not, not_not] at isFalse
    exact isFalse
  · by_cases isStop : look = 9
    · subst isStop
      have isTrue : decide (place = 9) = true := isLow.symm.trans lowStop
      exact of_decide_eq_true isTrue
    · obtain ⟨bit, rfl⟩ : ∃ bit : Fin 8, look = bit.val + 1 :=
        ⟨⟨look - 1, by omega⟩, by simp; omega⟩
      have isSingle := level (1 <<< UInt8.ofNat bit.val)
      rw [single bit ⟨place, by omega⟩] at isSingle
      obtain ⟨_, _, data⟩ := Frame.of_byte
        (receives (shownAs sender (1 <<< UInt8.ofNat bit.val)))
      rw [written_shownAs] at data
      have isSet := getLsbD_sampledByte
        (run.frame (lineLevel sender
          (shownAs sender (1 <<< UInt8.ofNat bit.val)) writer)).data bit
      rw [data, alone] at isSet
      have isClear := getLsbD_sampledByte
        (run.frame (lineLevel sender (shownAs sender 0) writer)).data bit
      rw [lowData] at isClear
      have isTrue : decide (place = bit.val + 1 ∨ place = 9) = true :=
        isSingle.symm.trans isSet.symm
      have isFalse : decide (place = 9) = false := by
        refine (isLow.symm.trans isClear.symm).trans ?_
        simp
      simp only [decide_eq_true_eq, decide_eq_false_iff_not]
        at isTrue isFalse
      omega

theorem HandlerRun.receivesEvery_iff_inPlace :
    ReceivesEvery sender writer run ↔ run.InPlace writer := by
  constructor
  · intro receives
    have placed {look : Nat} (inRun : look ≤ 9) :
        writer.set look ≤ (run.looks look).cycle ∧
          (look < 9 → (run.looks look).cycle < writer.set (look + 1)) := by
      obtain ⟨place, placeInRun, past, notYet⟩ :=
        writer.exists_place (run.looks look).cycle
      cases run.place_eq sender receives inRun placeInRun past notYet
      exact ⟨past, notYet⟩
    refine ⟨fun look atMost => ?_, (placed (Nat.le_refl 9)).1⟩
    obtain ⟨past, notYet⟩ := placed (Nat.le_succ_of_le atMost)
    exact ⟨past, notYet (Nat.lt_succ_of_le atMost)⟩
  · intro inPlace
    exact inPlace.receives sender

/-- Every byte is received exactly if each look is late enough for its level
and in time for it. -/
theorem HandlerRun.receivesEvery_iff :
    ReceivesEvery sender writer run ↔
      (∀ look, look ≤ 8 →
        writer.lag look ≤ times.rxStartTime.toNat + run.late look ∧
          times.rxStartTime.toNat + run.late look <
            times.bitTime.toNat + writer.lag (look + 1)) ∧
        times.bitTime.toNat + writer.lag 9 ≤
          times.rxStartTime.toNat + times.rxEndTime.toNat +
            run.late 9 := by
  rw [run.receivesEvery_iff_inPlace sender, InPlace]
  have stop : (run.looks 9).cycle = times.due 9 + run.late 9 :=
    run.cycle_eq (Nat.le_refl 9)
  have stopSet : writer.set 9 = 9 * times.bitTime.toNat + writer.lag 9 :=
    writer.set_eq (by decide)
  rw [BitTimes.due, if_neg (by decide)] at stop
  apply and_congr
  · apply forall₂_congr
    intro look atMost
    have cycle := run.cycle_eq (Nat.le_succ_of_le atMost)
    rw [BitTimes.due, if_pos atMost] at cycle
    have set : writer.set look =
        look * times.bitTime.toNat + writer.lag look :=
      writer.set_eq (by omega)
    have next : writer.set (look + 1) =
        (look + 1) * times.bitTime.toNat + writer.lag (look + 1) :=
      writer.set_eq (by omega)
    rw [Nat.succ_mul] at next
    omega
  · omega

end Receives

/-! ## The rates of `sw_open` -/

/-- The times of `sw_open` do not overflow: the clock of the chip runs at
240 MHz at most. -/
theorem swOpen_times {cpuFreq baudRate : BitVec 32}
    (clock : cpuFreq.toNat ≤ 240000000) :
    (swOpen cpuFreq baudRate).bitTime.toNat =
        cpuFreq.toNat / baudRate.toNat ∧
      (swOpen cpuFreq baudRate).rxStartTime.toNat =
        cpuFreq.toNat / baudRate.toNat /
          (if baudRate = 115200 then 256 else 9) ∧
      (swOpen cpuFreq baudRate).rxEndTime.toNat =
        cpuFreq.toNat / baudRate.toNat *
            (if baudRate = 115200 then 127 else 8) /
          (if baudRate = 115200 then 256 else 9) := by
  have bitTime : (cpuFreq / baudRate).toNat =
      cpuFreq.toNat / baudRate.toNat :=
    BitVec.toNat_udiv
  have atMost : cpuFreq.toNat / baudRate.toNat ≤ cpuFreq.toNat :=
    Nat.div_le_self _ _
  rw [swOpen]
  by_cases isFast : baudRate = 115200
  · have isRate : baudRate.toNat = 115200 := by
      rw [isFast]
      rfl
    rw [if_pos isFast, if_pos isFast, if_pos isFast]
    refine ⟨bitTime, ?_, ?_⟩
    · rw [BitVec.toNat_udiv, bitTime]
      rfl
    · rw [BitVec.toNat_udiv, BitVec.toNat_mul, bitTime]
      have noOverflow : cpuFreq.toNat / baudRate.toNat * 127 < 2 ^ 32 := by
        rw [isRate]
        omega
      exact congrArg (· / 256) (Nat.mod_eq_of_lt noOverflow)
  · rw [if_neg isFast, if_neg isFast, if_neg isFast]
    refine ⟨bitTime, ?_, ?_⟩
    · rw [BitVec.toNat_udiv, bitTime]
      rfl
    · rw [BitVec.toNat_udiv, BitVec.toNat_mul, bitTime]
      have noOverflow : cpuFreq.toNat / baudRate.toNat * 8 < 2 ^ 32 := by
        omega
      exact congrArg (· / 9) (Nat.mod_eq_of_lt noOverflow)

/-- For every clock of the chip and every rate that gives a bit time: what
lateness of the two lets the port receive every byte.  A run of the handler
that loses no time at all misses some byte at 115200, and elsewhere unless 9
divides the bit time and the writer loses none either. -/
theorem swOpen_receivesEvery_iff {cpuFreq baudRate : BitVec 32}
    (clock : cpuFreq.toNat ≤ 240000000) {bitTime : Nat}
    (isBitTime : bitTime = cpuFreq.toNat / baudRate.toNat)
    (positive : 0 < bitTime) (sender : SwSerial)
    (writer : WriterRun (swOpen cpuFreq baudRate).bitTime)
    (run : HandlerRun (swOpen cpuFreq baudRate)) :
    (ReceivesEvery sender writer run ↔
      let start := bitTime / (if baudRate = 115200 then 256 else 9)
      let stop := bitTime * (if baudRate = 115200 then 127 else 8) /
        (if baudRate = 115200 then 256 else 9)
      (∀ look, look ≤ 8 →
        writer.lag look ≤ start + run.late look ∧
          start + run.late look < bitTime + writer.lag (look + 1)) ∧
        bitTime + writer.lag 9 ≤ start + stop + run.late 9) ∧
      (run.late 9 = 0 →
        (ReceivesEvery sender writer run ↔
          baudRate ≠ 115200 ∧ 9 ∣ bitTime ∧ writer.lag 9 = 0)) := by
  obtain ⟨isStored, startTime, endTime⟩ :=
    @swOpen_times cpuFreq baudRate clock
  rw [← isBitTime] at isStored startTime endTime
  have exactly := @HandlerRun.receivesEvery_iff _ writer run sender
  rw [isStored, startTime, endTime] at exactly
  refine ⟨exactly, ?_⟩
  intro onTime
  have prompt {look : Nat} (atMost : look ≤ 8) : run.late look = 0 := by
    have late := run.late_le (Nat.le_succ_of_le atMost)
    omega
  rw [exactly]
  by_cases isFast : baudRate = 115200
  · simp only [if_pos isFast, onTime]
    constructor
    · intro both
      omega
    · intro both
      exact absurd isFast both.1
  · simp only [if_neg isFast, onTime]
    constructor
    · intro both
      exact ⟨isFast, by omega, by omega⟩
    · rintro ⟨_, divides, noLag⟩
      refine ⟨fun look atMost => ?_, by omega⟩
      have lag := writer.lag_le (Nat.le_succ_of_le atMost)
      rw [prompt atMost]
      omega

/-! ## Runs that are late enough -/

/-- A use of the pin some cycles behind its wait. -/
def lateUse (previous : Nat) (wait : BitVec 32) (extra : Nat) : PinUse where
  start := previous
  readings := [previous + wait.toNat]
  cycle := previous + wait.toNat + extra

theorem lateUse_runs (previous : Nat) (wait : BitVec 32) (extra : Nat) :
    (lateUse previous wait extra).Runs wait previous where
  behind := Nat.le_refl _
  ordered := by
    intro reading member
    rw [lateUse, List.mem_singleton] at member
    rw [member]
    exact Nat.le_add_right _ _
  ended := by
    refine ⟨previous + wait.toNat, ?_, Nat.le_add_right _ extra⟩
    have elapsed := @toNat_counterAt_sub 32 previous
      (previous + wait.toNat) (Nat.le_add_right _ _)
    rw [Nat.add_sub_cancel_left, Nat.mod_eq_of_lt wait.isLt] at elapsed
    rw [lateUse, waitEnd, if_neg]
    rw [BitVec.lt_def, elapsed]
    exact Nat.lt_irrefl _

/-- Every look is 100 cycles later than the wait behind the one before. -/
def lateLooks (times : BitTimes) : Nat → PinUse
  | 0 => lateUse 0 times.rxStartTime 100
  | look + 1 =>
      lateUse (lateLooks times look).cycle (times.wait (look + 1)) 100

/-- Every level lasts 20 cycles longer than it should. -/
def lateSets (bitTime : BitVec 32) : Nat → PinUse
  | 0 => lateUse 0 bitTime 20
  | place + 1 => lateUse (lateSets bitTime place).cycle bitTime 20

def lateRun (times : BitTimes) : HandlerRun times where
  entered := 0
  looks := lateLooks times
  first := lateUse_runs 0 times.rxStartTime 100
  next _ _ := lateUse_runs _ _ _

def lateWriter (bitTime : BitVec 32) : WriterRun bitTime where
  sets := lateSets bitTime
  waits place _ := by
    cases place with
    | zero =>
        exact lateUse_runs 0 bitTime 20
    | succ place =>
        exact lateUse_runs _ _ _

/-- At 160 MHz and 115200 baud a bit takes 1388 cycles. -/
theorem swOpen_receivesEvery_iff_lateRun :
    ReceivesEvery invertingPort (lateWriter (swOpen 160000000 115200).bitTime)
      (lateRun (swOpen 160000000 115200)) := by
  have receives := @swOpen_receivesEvery_iff 160000000 115200 (by decide)
    1388 (by decide) (by decide) invertingPort
    (lateWriter (swOpen 160000000 115200).bitTime)
    (lateRun (swOpen 160000000 115200))
  apply receives.1.mpr
  decide

end Esp32Source.Uart
