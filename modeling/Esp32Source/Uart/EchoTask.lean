import Mathlib.Data.Nat.Find
import Esp32Source.Machine.History
import Esp32Source.Memory.CString

/-!
# The echo task

`echo_task_read` looks for a frame in what it received, by two runs of equal
bytes at fixed distances, and copies it to `data3`.  It copies as many bytes
as the position of the match says, and not as many as a frame has.  One
position gives 16; the one in front of it gives 15, and those behind it more
than `data3` holds.

The bytes in `data` are given with each pass; the calls of the driver and the
delays are left out.
-/

namespace Esp32Source.Uart

open Memory Machine

/-- `BUF_SIZE` -/
def bufSize : Nat := 1024

/-- The condition under which a frame is found. -/
def patternAt (data : Buffer bufSize) (cnt : Nat) : Bool :=
  let byte := fun index => data.cells.getD index 0
  byte (cnt - 4) == 0x0F && byte (cnt - 5) == 0x0F &&
    byte (cnt - 6) == 0x0F && byte (cnt - 7) == 0x0F &&
    byte (cnt - 10) == 0xEF && byte (cnt - 11) == 0xEF &&
    byte (cnt - 12) == 0xEF && byte (cnt - 13) == 0xEF &&
    byte (cnt - 14) == 0xEF

/-- The rest of the inner loop: `count` more bytes are copied, from `dem`
on. -/
def copyFrame (data : Buffer bufSize) (cnt : Nat) :
    Nat → Nat → Buffer 16 → Except Fault (Buffer 16)
  | 0, _, data3 => .ok data3
  | count + 1, dem, data3 => do
      let byte ← data.load (cnt - 19 + dem) 1
      let data3 ← data3.store dem byte
      copyFrame data cnt count (dem + 1) data3

/-- The rest of the outer loop, with `count` positions left to look at. -/
def scanFrom (data : Buffer bufSize) (data3 : Buffer 16) :
    Nat → Nat → Except Fault (Buffer 16)
  | 0, _ => .ok data3
  | count + 1, cnt =>
      if patternAt data cnt then copyFrame data cnt (cnt - 4) 0 data3
      else scanFrom data data3 count (cnt + 1)

/-- The loop over `cnt` from 19 to 39. -/
def scan (data : Buffer bufSize) (data3 : Buffer 16) :
    Except Fault (Buffer 16) :=
  scanFrom data data3 (40 - 19) 19

/-- One pass of `echo_task_read` behind `uart_read_bytes`, with the bytes that
it gives to `uart_write_bytes`. -/
def echoTaskRead (data : Buffer bufSize) (data3 : Buffer 16) :
    Except Fault (Buffer 16 × List UInt8) := do
  let data3 ← scan data data3
  return (data3, data3.cells)

/-! ## The loops -/

/-- The inner loop stores the bytes from `cnt - 19` on at once. -/
theorem copyFrame_eq_ok_iff {data : Buffer bufSize} {cnt count dem : Nat}
    {data3 next : Buffer 16} (inside : cnt - 19 + dem + count ≤ bufSize)
    (started : dem ≤ 16) :
    copyFrame data cnt count dem data3 = .ok next ↔
      data3.store dem (data.window (cnt - 19 + dem) count) = .ok next := by
  induction count generalizing dem data3 with
  | zero =>
      rw [copyFrame, Buffer.window, Memory.window, List.take_zero,
        Buffer.store_eq_ok_iff, patch_nil, List.length_nil, Nat.add_zero,
        and_iff_right started, Except.ok.injEq, eq_comm, Buffer.ext_iff]
  | succ count inductionHypothesis =>
      have length : (data.window (cnt - 19 + dem) 1).length = 1 :=
        data.length_window (by omega)
      have whole : data.window (cnt - 19 + dem) (count + 1) =
          data.window (cnt - 19 + dem) 1 ++
            data.window (cnt - 19 + (dem + 1)) count := by
        rw [Nat.add_comm count 1, ← Nat.add_assoc]
        exact window_append _ 1 count data.cells
      have rest (middle : Buffer 16)
          (stored : data3.store dem (data.window (cnt - 19 + dem) 1) =
            .ok middle) :
          copyFrame data cnt count (dem + 1) middle = .ok next ↔
            middle.store (dem + 1)
              (data.window (cnt - 19 + (dem + 1)) count) = .ok next := by
        have room := (Buffer.store_eq_ok_iff.mp stored).1
        rw [length] at room
        exact inductionHypothesis (by omega) room
      rw [copyFrame, Buffer.load_of_fits _ _ _ (by omega), whole,
        Buffer.store_append_eq_ok_iff, length]
      constructor
      · intro copied
        obtain ⟨byte, isByte, copied⟩ := bind_eq_ok_iff.mp copied
        cases isByte
        obtain ⟨middle, stored, copied⟩ := bind_eq_ok_iff.mp copied
        exact ⟨middle, stored, (rest middle stored).mp copied⟩
      · rintro ⟨middle, stored, behind⟩
        have copied := (rest middle stored).mpr behind
        exact bind_eq_ok_iff.mpr
          ⟨_, rfl, bind_eq_ok_iff.mpr ⟨middle, stored, copied⟩⟩

/-- The smallest position from 19 to 39 at which the pattern holds. -/
structure FirstMatch (data : Buffer bufSize) (cnt : Nat) : Prop where
  inRange : 19 ≤ cnt ∧ cnt < 40
  holds : patternAt data cnt = true
  smallest : ∀ earlier, 19 ≤ earlier → earlier < cnt →
    patternAt data earlier = false

/-- There is one first match only. -/
theorem FirstMatch.unique {data : Buffer bufSize} {cnt other : Nat}
    (first : FirstMatch data cnt) (otherFirst : FirstMatch data other) :
    other = cnt := by
  by_contra different
  rcases Nat.lt_or_gt_of_ne different with before | behind
  · have fails := first.smallest other otherFirst.inRange.1 before
    rw [otherFirst.holds] at fails
    cases fails
  · have fails := otherFirst.smallest cnt first.inRange.1 behind
    rw [first.holds] at fails
    cases fails

theorem FirstMatch.some_match {data : Buffer bufSize} {cnt : Nat}
    (first : FirstMatch data cnt) :
    ¬ ∀ other, 19 ≤ other → other < 40 → patternAt data other = false := by
  intro noMatch
  have fails := noMatch cnt first.inRange.1 first.inRange.2
  rw [first.holds] at fails
  cases fails

theorem scanFrom_of_match {data : Buffer bufSize} {data3 : Buffer 16}
    {count start cnt : Nat} (holds : patternAt data cnt = true)
    (smallest : ∀ earlier, start ≤ earlier → earlier < cnt →
      patternAt data earlier = false)
    (reached : start ≤ cnt) (within : cnt < start + count) :
    scanFrom data data3 count start =
      copyFrame data cnt (cnt - 4) 0 data3 := by
  induction count generalizing start with
  | zero =>
      omega
  | succ count inductionHypothesis =>
      by_cases here : start = cnt
      · rw [scanFrom, here, if_pos holds]
      · have noMatch := smallest start (Nat.le_refl start) (by omega)
        rw [scanFrom, noMatch, if_neg Bool.false_ne_true]
        apply inductionHypothesis
        · intro earlier notBefore before
          exact smallest earlier (by omega) before
        · omega
        · omega

theorem scanFrom_of_no_match {data : Buffer bufSize} {data3 : Buffer 16}
    {count start : Nat}
    (noMatch : ∀ cnt, start ≤ cnt → cnt < start + count →
      patternAt data cnt = false) :
    scanFrom data data3 count start = .ok data3 := by
  induction count generalizing start with
  | zero =>
      rfl
  | succ count inductionHypothesis =>
      have notHere := noMatch start (Nat.le_refl start) (by omega)
      rw [scanFrom, notHere, if_neg Bool.false_ne_true]
      apply inductionHypothesis
      intro cnt notBefore before
      exact noMatch cnt (by omega) (by omega)

theorem firstMatch_or_none (data : Buffer bufSize) :
    (∃ cnt, FirstMatch data cnt) ∨
      ∀ cnt, 19 ≤ cnt → cnt < 40 → patternAt data cnt = false := by
  by_cases found :
      ∃ cnt, (19 ≤ cnt ∧ cnt < 40) ∧ patternAt data cnt = true
  · obtain ⟨inRange, holds⟩ := Nat.find_spec found
    refine Or.inl ⟨Nat.find found, inRange, holds, ?_⟩
    intro earlier notBefore before
    have notFound := Nat.find_min found before
    rw [← Bool.not_eq_true]
    intro holdsEarlier
    exact notFound ⟨⟨notBefore, by omega⟩, holdsEarlier⟩
  · refine Or.inr ?_
    intro cnt notBefore before
    rw [← Bool.not_eq_true]
    intro holds
    exact found ⟨cnt, ⟨notBefore, before⟩, holds⟩

/-- The pattern ends with four bytes 0x0F. -/
theorem last_of_patternAt {data : Buffer bufSize} {cnt : Nat}
    (holds : patternAt data cnt = true) :
    data.cells.getD (cnt - 4) 0 = 0x0F := by
  simp only [patternAt, Bool.and_eq_true, beq_iff_eq] at holds
  exact holds.1.1.1.1.1.1.1.1

/-! ## The copied frame -/

/-- The scan copies the first frame it finds, and nothing else is written. -/
def ScanCopies (data : Buffer bufSize) (data3 : Buffer 16) : Prop :=
  ∃ next, echoTaskRead data data3 = .ok (next, next.cells) ∧
    (∀ cnt, FirstMatch data cnt →
      next.cells = data.window (cnt - 19) 16) ∧
    ((∀ cnt, 19 ≤ cnt → cnt < 40 → patternAt data cnt = false) →
      next = data3)

theorem echoTaskRead_eq_ok_iff {data : Buffer bufSize}
    {data3 next : Buffer 16} :
    echoTaskRead data data3 = .ok (next, next.cells) ↔
      scan data data3 = .ok next := by
  rw [echoTaskRead, bind_eq_ok_iff]
  constructor
  · rintro ⟨middle, scanned, returned⟩
    cases returned
    exact scanned
  · intro scanned
    exact ⟨next, scanned, rfl⟩

/-- At a match, as many bytes are copied as the position says. -/
theorem scan_of_firstMatch {data : Buffer bufSize} {cnt : Nat}
    (first : FirstMatch data cnt) (data3 next : Buffer 16) :
    scan data data3 = .ok next ↔
      cnt - 4 ≤ 16 ∧
        next.cells = data.window (cnt - 19) (cnt - 4) ++
          data3.cells.drop (cnt - 4) := by
  obtain ⟨notBefore, before⟩ := first.inRange
  have large : bufSize = 1024 := rfl
  have length : (data.window (cnt - 19) (cnt - 4)).length = cnt - 4 :=
    data.length_window (by omega)
  rw [scan, scanFrom_of_match first.holds first.smallest notBefore
      (by omega),
    copyFrame_eq_ok_iff (by omega) (Nat.zero_le 16), Nat.add_zero,
    Buffer.store_eq_ok_iff, patch_zero, overlay, length, Nat.zero_add]

/-- The frame at 19 misses its last byte, which may be there already. -/
theorem window_at_nineteen {data : Buffer bufSize} {data3 : Buffer 16}
    (holds : patternAt data 19 = true) :
    data.window (19 - 19) (19 - 4) ++ data3.cells.drop (19 - 4) =
        data.window (19 - 19) 16 ↔
      data3.cells[15]? = some 0x0F := by
  have last := last_of_patternAt holds
  have size : data.cells.length = 1024 := data.length_cells
  have whole : data.window (19 - 19) 16 =
      data.window (19 - 19) (19 - 4) ++ data.window 15 1 :=
    window_append 0 15 1 data.cells
  have lastByte : data.window 15 1 = [0x0F] := by
    have inside : 15 < data.cells.length := by
      omega
    rw [List.getD_eq_getElem?_getD, List.getElem?_eq_getElem inside,
      Option.getD_some] at last
    rw [Buffer.window, Memory.window, List.drop_eq_getElem_cons inside,
      List.take_succ_cons, List.take_zero, last]
  have oldSize : data3.cells.length = 16 := data3.length_cells
  have oldInside : 15 < data3.cells.length := by
    omega
  have oldLast : data3.cells.drop (19 - 4) = [data3.cells[15]] := by
    rw [List.drop_eq_getElem_cons oldInside, List.drop_of_length_le]
    omega
  rw [whole, lastByte, List.append_cancel_left_eq, oldLast,
    List.getElem?_eq_getElem oldInside, Option.some.injEq,
    List.cons.injEq, and_iff_left rfl]

/-- Where the count is that of a frame, or the last byte is there already, the
scan leaves the frame. -/
theorem scan_of_fits {data : Buffer bufSize} {data3 : Buffer 16} {cnt : Nat}
    (first : FirstMatch data cnt)
    (fits : cnt = 20 ∨ (cnt = 19 ∧ data3.cells[15]? = some 0x0F)) :
    ∃ next, scan data data3 = .ok next ∧
      next.cells = data.window (cnt - 19) 16 := by
  have frameLength : (data.window (cnt - 19) 16).length = 16 := by
    have inRange := first.inRange
    have large : bufSize = 1024 := rfl
    exact data.length_window (by omega)
  let next : Buffer 16 := ⟨data.window (cnt - 19) 16, frameLength⟩
  refine ⟨next, ?_, rfl⟩
  rw [scan_of_firstMatch first]
  rcases fits with isTwenty | ⟨isNineteen, isLast⟩
  · subst isTwenty
    have size : data3.cells.length = 16 := data3.length_cells
    refine ⟨Nat.le_refl 16, ?_⟩
    rw [List.drop_of_length_le (Nat.le_of_eq size), List.append_nil]
  · subst isNineteen
    refine ⟨by decide, ?_⟩
    exact ((window_at_nineteen first.holds).mpr isLast).symm

/-- For every content of the receive buffer and of `data3`, the first frame is
copied, all of it and nothing more, exactly when there is none, or the first
match is at 20, or it is at 19 and the last byte of `data3` is 0x0F. -/
theorem scan_copies_iff (data : Buffer bufSize) (data3 : Buffer 16) :
    ScanCopies data data3 ↔
      ∀ cnt, FirstMatch data cnt →
        cnt = 20 ∨ (cnt = 19 ∧ data3.cells[15]? = some 0x0F) := by
  constructor
  · rintro ⟨next, passed, copies, _⟩ cnt first
    obtain ⟨notBefore, _⟩ := first.inRange
    obtain ⟨fits, cells⟩ := (scan_of_firstMatch first data3 next).mp
      (echoTaskRead_eq_ok_iff.mp passed)
    have frame := copies cnt first
    rcases Nat.lt_or_ge cnt 20 with small | large
    · have isNineteen : cnt = 19 := by
        omega
      subst isNineteen
      rw [frame] at cells
      exact Or.inr ⟨rfl, (window_at_nineteen first.holds).mp cells.symm⟩
    · exact Or.inl (by omega)
  · intro fits
    rcases firstMatch_or_none data with ⟨cnt, first⟩ | noMatch
    · obtain ⟨next, scanned, cells⟩ := scan_of_fits first (fits cnt first)
      refine ⟨next, echoTaskRead_eq_ok_iff.mpr scanned, ?_, ?_⟩
      · intro other otherFirst
        rw [first.unique otherFirst]
        exact cells
      · intro noMatch
        exact absurd noMatch first.some_match
    · have scanned : scan data data3 = .ok data3 :=
        scanFrom_of_no_match noMatch
      refine ⟨data3, echoTaskRead_eq_ok_iff.mpr scanned, ?_,
        fun _ => rfl⟩
      intro cnt first
      exact absurd noMatch first.some_match

/-- A frame behind two other bytes, so that it is found at 21. -/
def shiftedFrame : List UInt8 :=
  List.replicate 7 0 ++ List.replicate 5 0xEF ++ List.replicate 2 0 ++
    List.replicate 4 0x0F

/-- Seventeen bytes are copied, the last one behind `data3`. -/
theorem shiftedFrame_overflows :
    echoTaskRead ((Buffer.zero bufSize).storeFront shiftedFrame (by decide))
        (Buffer.zero 16) = .error .outOfBounds ∧
      ¬ ∀ (data : Buffer bufSize) (data3 : Buffer 16),
        ScanCopies data data3 := by
  have overflows :
      echoTaskRead
        ((Buffer.zero bufSize).storeFront shiftedFrame (by decide))
        (Buffer.zero 16) = .error .outOfBounds := by
    decide +kernel
  refine ⟨overflows, ?_⟩
  intro always
  obtain ⟨next, passed, _⟩ :=
    always ((Buffer.zero bufSize).storeFront shiftedFrame (by decide))
      (Buffer.zero 16)
  rw [overflows] at passed
  cases passed

end Esp32Source.Uart
