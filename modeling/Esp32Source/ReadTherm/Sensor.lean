import Esp32Source.Memory.Decimal
import Esp32Source.Memory.Stdio

/-!
# Reading a thermal sensor

`readFile` copies every record of the sensor file to one block, so that the
last record is what remains.  `getTemp` copies the part from its first equals
sign on to ten bytes, shifts them by one, and reads the number at their
beginning.

The last store of `getTemp` is one byte behind `lineTemp`.  What it does is
left to the caller of the model: it is a fault, or it changes some other byte.

All other accesses are followed exactly: the run reaches the number if every
record is short, if the last one has an equals sign, and if at most eight
bytes follow that.
-/

namespace Esp32Source.ReadTherm

open Memory Machine

/-- The byte `=`. -/
def equals : UInt8 := 61

/-- What the arrays hold before anything is stored in them, and the block
that `malloc` returns for `line`. -/
structure Uninitialised where
  buffer : Buffer 256
  line : Option (Buffer 100)
  lineTemp : Buffer 10

/-- What a store behind `lineTemp` does. -/
inductive OutsideStore where
  | faults
  /-- It changes a byte that is none of the ten. -/
  | elsewhere
  deriving DecidableEq, Repr

/-! ## `readFile` -/

/-- One pass of the read loop: `fgets` stores the record, and the string it
makes is copied to `line`. -/
def copyRecord (buffer : Buffer 256) (line : Buffer 100)
    (record : List UInt8) : Except Fault (Buffer 256 × Buffer 100) := do
  let buffer ← buffer.store 0 (record ++ [0])
  let line ← strcpy line buffer 0
  let length ← strlen line 0
  let line ← line.store length [0]
  return (buffer, line)

def copyRecords (buffer : Buffer 256) (line : Option (Buffer 100)) :
    List (List UInt8) → Except Fault (Option (Buffer 100))
  | [] => .ok line
  | record :: records => do
      let target ← follow line
      let (buffer, copied) ← copyRecord buffer target record
      copyRecords buffer (some copied) records

/-- `readFile` of a file with the given content, or of one that cannot be
opened.  The count of its `fgets` is 125. -/
def readFile (file : Option (List UInt8)) (buffer : Buffer 256)
    (line : Option (Buffer 100)) : Except Fault (Option (Buffer 100)) :=
  match file with
  | none => .ok none
  | some content => copyRecords buffer line (records 124 content)

/-! ## `getTemp` -/

/-- The first passes of the loop that removes the equals sign. -/
def shiftLine (lineTemp : Buffer 10) : Nat → Except Fault (Buffer 10)
  | 0 => .ok lineTemp
  | i + 1 => do
      let shifted ← shiftLine lineTemp i
      let byte ← shifted.load (i + 1) 1
      shifted.store i byte

/-- `lineTemp[sizeof(lineTemp)] = '\0'` -/
def terminateLine (outside : OutsideStore) (lineTemp : Buffer 10) :
    Except Fault (Buffer 10) :=
  match outside with
  | .faults => lineTemp.store 10 [0]
  | .elsewhere => .ok lineTemp

/-- `getTemp`, up to the division of the parsed number by 1000. -/
def getTemp (outside : OutsideStore) (file : Option (List UInt8))
    (fresh : Uninitialised) : Except Fault Int := do
  -- neither result is checked before it is used as a string
  let line ← follow (← readFile file fresh.buffer fresh.line)
  let position ← follow (← strchr line equals)
  let copied ← strcpy fresh.lineTemp line position
  let shifted ← shiftLine copied 9
  let terminated ← terminateLine outside shifted
  atoi terminated

/-! ## What remains of the file -/

/-- What `line` holds after the records were copied to it. -/
def lineCells (line : Buffer 100) (records : List (List UInt8)) :
    List UInt8 :=
  overlayAll line.cells (records.map fun record => cText record ++ [0])

theorem lineCells_cons (line : Buffer 100) {copied : Buffer 100}
    {record : List UInt8}
    (cells : copied.cells = overlay (cText record ++ [0]) line.cells)
    (records : List (List UInt8)) :
    lineCells line (record :: records) = lineCells copied records := by
  rw [lineCells, lineCells, cells]
  rfl

theorem length_lineCells (line : Buffer 100)
    {records : List (List UInt8)}
    (fit : ∀ record, record ∈ records → (cText record).length < 100) :
    (lineCells line records).length = 100 := by
  induction records using List.reverseRecOn with
  | nil =>
      exact line.length_cells
  | append_singleton records last inductionHypothesis =>
      rw [List.forall_mem_append, List.forall_mem_singleton] at fit
      have earlier := inductionHypothesis fit.1
      rw [lineCells] at earlier
      rw [lineCells, List.map_append, List.map_singleton, overlayAll_concat,
        length_overlay, earlier, List.length_append, List.length_singleton]
      exact Nat.max_eq_right fit.2

/-- A record is copied exactly when its string leaves a byte of `line`. -/
theorem copyRecord_eq_ok_iff
    {buffer : Buffer 256} {line copied : Buffer 100} {record : List UInt8}
    (short : record.length ≤ 124) :
    (∃ stored, copyRecord buffer line record = .ok (stored, copied)) ↔
      (cText record).length < 100 ∧
        copied.cells = overlay (cText record ++ [0]) line.cells := by
  obtain ⟨stored, isStored, storedCells⟩ :=
    buffer.store_terminated (Nat.lt_of_le_of_lt short (by decide))
  have terminated : 0 ∈ stored.cells.drop 0 := by
    rw [List.drop_zero, storedCells]
    simp
  have text : cText (stored.cells.drop 0) = cText record := by
    rw [List.drop_zero, storedCells, cText_append_zero]
  have copies {first : Buffer 100} :
      strcpy line stored 0 = .ok first ↔
        (cText record).length < 100 ∧
          first.cells = overlay (cText record ++ [0]) line.cells := by
    rw [strcpy_eq_ok_iff, text, and_iff_right terminated]
  have keeps {first : Buffer 100}
      (cells : first.cells = overlay (cText record ++ [0]) line.cells) :
      strlen first 0 = .ok (cText record).length ∧
        first.store (cText record).length [0] = .ok first := by
    rw [overlay, List.append_assoc, List.singleton_append] at cells
    exact ⟨strlen_of_terminated cells (nulFree_cText record),
      store_terminator cells⟩
  unfold copyRecord
  simp only [isStored, bind_eq_ok_iff, Except.ok.injEq, exists_eq_left']
  constructor
  · rintro ⟨_, first, isCopied, length, measured, last, isLast, same⟩
    obtain ⟨fits, cells⟩ := copies.mp isCopied
    obtain ⟨isLength, isKept⟩ := keeps cells
    rw [isLength] at measured
    obtain rfl := Except.ok.inj measured
    rw [isKept] at isLast
    obtain rfl := Except.ok.inj isLast
    cases same
    exact ⟨fits, cells⟩
  · rintro ⟨fits, cells⟩
    obtain ⟨isLength, isKept⟩ := keeps cells
    exact ⟨stored, copied, copies.mpr ⟨fits, cells⟩, _, isLength, copied,
      isKept, rfl⟩

/-- All records are copied exactly when each of their strings leaves a byte
of `line`. -/
theorem copyRecords_eq_ok_iff
    {buffer : Buffer 256} {line : Buffer 100}
    {records : List (List UInt8)} {copied : Option (Buffer 100)}
    (short : ∀ record, record ∈ records → record.length ≤ 124) :
    copyRecords buffer (some line) records = .ok copied ↔
      (∀ record, record ∈ records → (cText record).length < 100) ∧
        ∃ final, copied = some final ∧
          final.cells = lineCells line records := by
  induction records generalizing buffer line with
  | nil =>
      rw [copyRecords, Except.ok.injEq]
      constructor
      · rintro rfl
        exact ⟨by simp, line, rfl, rfl⟩
      · rintro ⟨_, final, rfl, cells⟩
        exact congrArg some (Buffer.ext cells.symm)
  | cons record records inductionHypothesis =>
      rw [List.forall_mem_cons] at short ⊢
      simp only [copyRecords, follow, bind_eq_ok_iff, Except.ok.injEq,
        exists_eq_left']
      constructor
      · rintro ⟨⟨stored, first⟩, isFirst, isRest⟩
        obtain ⟨fits, cells⟩ :=
          (copyRecord_eq_ok_iff short.1).mp ⟨stored, isFirst⟩
        obtain ⟨restFit, final, isFinal, finalCells⟩ :=
          (inductionHypothesis short.2).mp isRest
        rw [← lineCells_cons line cells] at finalCells
        exact ⟨⟨fits, restFit⟩, final, isFinal, finalCells⟩
      · rintro ⟨⟨fits, restFit⟩, final, isFinal, finalCells⟩
        have sourceFits : (cText record ++ [0]).length ≤ 100 := by
          rw [List.length_append, List.length_singleton]
          exact fits
        have isCopied : ∃ stored,
            copyRecord buffer line record =
              .ok (stored, line.storeFront _ sourceFits) :=
          (copyRecord_eq_ok_iff short.1).mpr ⟨fits, rfl⟩
        obtain ⟨stored, isFirst⟩ := isCopied
        refine ⟨(stored, _), isFirst,
          (inductionHypothesis short.2).mpr ⟨restFit, final, isFinal, ?_⟩⟩
        rw [finalCells]
        exact lineCells_cons line rfl records

/-- `readFile` returns a line of an existing file exactly when the strings of
all records leave a byte of it. -/
theorem readFile_eq_some_iff
    {content : List UInt8} {buffer : Buffer 256} {line final : Buffer 100} :
    readFile (some content) buffer (some line) = .ok (some final) ↔
      (∀ record, record ∈ records 124 content →
        (cText record).length < 100) ∧
        final.cells = lineCells line (records 124 content) := by
  rw [readFile, copyRecords_eq_ok_iff fun record member =>
    length_le_of_mem_records member]
  simp

/-- The last record is what remains. -/
theorem lineCells_concat (line : Buffer 100)
    (records : List (List UInt8)) (last : List UInt8) :
    ∃ rest,
      lineCells line (records ++ [last]) = cText last ++ 0 :: rest := by
  rw [lineCells, List.map_append, List.map_singleton, overlayAll_concat,
    overlay, List.append_assoc, List.singleton_append]
  exact ⟨_, rfl⟩

/-! ## The number behind the equals sign -/

/-- The shift loop takes the first byte out; the last one stays. -/
theorem shiftLine_cells (lineTemp : Buffer 10) (count : Nat)
    (inRange : count < 10) :
    ∃ shifted,
      shiftLine lineTemp count = .ok shifted ∧
        shifted.cells =
          (lineTemp.cells.drop 1).take count ++
            lineTemp.cells.drop count := by
  induction count with
  | zero =>
      exact ⟨lineTemp, rfl, by simp⟩
  | succ count inductionHypothesis =>
      obtain ⟨shifted, isShifted, cells⟩ :=
        inductionHypothesis (Nat.lt_of_succ_lt inRange)
      have length := lineTemp.length_cells
      have front : ((lineTemp.cells.drop 1).take count).length = count := by
        rw [List.length_take, List.length_drop, length]
        omega
      obtain ⟨first, behindFirst⟩ : ∃ first,
          lineTemp.cells.drop count =
            first :: lineTemp.cells.drop (count + 1) :=
        ⟨_, List.drop_eq_getElem_cons (by omega)⟩
      obtain ⟨second, isSecond, behindSecond⟩ : ∃ second,
          lineTemp.cells[count + 1]? = some second ∧
            lineTemp.cells.drop (count + 1) =
              second :: lineTemp.cells.drop (count + 2) :=
        ⟨_, List.getElem?_eq_getElem (by omega),
          List.drop_eq_getElem_cons (by omega)⟩
      rw [behindFirst, behindSecond] at cells
      have byte : shifted.load (count + 1) 1 = .ok [second] := by
        rw [Buffer.load_of_fits _ _ _ (by omega), Buffer.window,
          Memory.window, cells, ← List.drop_drop, List.drop_left' front]
        rfl
      obtain ⟨next, isNext, nextCells⟩ :=
        shifted.store_of_fits count [second] (by simp; omega)
      refine ⟨next, ?_, ?_⟩
      · rw [shiftLine, bind_eq_ok_iff]
        refine ⟨shifted, isShifted, ?_⟩
        rw [bind_eq_ok_iff]
        exact ⟨_, byte, isNext⟩
      · have taken : (lineTemp.cells.drop 1).take (count + 1) =
            (lineTemp.cells.drop 1).take count ++ [second] := by
          rw [List.take_add_one, List.getElem?_drop, Nat.add_comm 1,
            isSecond]
          rfl
        rw [nextCells, cells, taken, behindSecond,
          patch_append_of_le (Nat.le_of_eq front), front, Nat.sub_self,
          List.append_assoc]
        rfl

/-- Removing the first byte of a string leaves the string behind it. -/
theorem readString_shiftLine {lineTemp shifted : Buffer 10}
    {first : UInt8} {text rest : List UInt8}
    (cells : lineTemp.cells = first :: text ++ 0 :: rest)
    (free : NulFree text) (isShifted : shiftLine lineTemp 9 = .ok shifted) :
    readString shifted 0 = .ok text := by
  obtain ⟨same, isSame, shiftedCells⟩ :=
    shiftLine_cells lineTemp 9 (by decide)
  obtain rfl : same = shifted :=
    Except.ok.inj (isSame.symm.trans isShifted)
  have all : (lineTemp.cells.drop 1).take 9 = lineTemp.cells.drop 1 := by
    apply List.take_of_length_le
    rw [List.length_drop, lineTemp.length_cells]
  rw [all, cells, List.cons_append, List.drop_succ_cons, List.drop_zero,
    List.append_assoc, List.cons_append] at shiftedCells
  rw [readString_eq_ok_iff, List.drop_zero, shiftedCells]
  exact ⟨by simp, (cText_terminated free _).symm⟩

/-- What is copied from the equals sign on is parsed without it. -/
theorem atoi_of_copied {lineTemp copied shifted : Buffer 10}
    {behind : List UInt8} (free : NulFree behind)
    (isCopied : lineTemp.store 0 (equals :: behind ++ [0]) = .ok copied)
    (isShifted : shiftLine copied 9 = .ok shifted) :
    atoi shifted = .ok (parseNumber behind) := by
  have cells := (Buffer.store_terminated_eq_ok_iff.mp isCopied).2
  rw [atoi, readString_shiftLine cells free isShifted]
  rfl

/-- From a line on: the string from its first equals sign on is copied,
shifted and parsed, if at most eight bytes follow the sign. -/
theorem parsesLine_iff (line : Buffer 100) {lineTemp : Buffer 10}
    {value : Int} :
    (∃ position,
        strchr line equals = .ok (some position) ∧
          ∃ copied,
            strcpy lineTemp line position = .ok copied ∧
              ∃ shifted,
                shiftLine copied 9 = .ok shifted ∧
                  atoi shifted = .ok value) ↔
      0 ∈ line.cells ∧
        ∃ front behind,
          cText line.cells = front ++ equals :: behind ∧
            equals ∉ front ∧ behind.length ≤ 8 ∧
              value = parseNumber behind := by
  constructor
  · rintro ⟨position, isFound, copied, isCopied, shifted, isShifted,
      isParsed⟩
    rw [strcpy, bind_eq_ok_iff] at isCopied
    obtain ⟨found, isRead, isStored⟩ := isCopied
    obtain ⟨terminated, front, behind, text, isFirst, rfl⟩ :=
      (readString_strchr_iff (by decide)).mp ⟨position, isFound, isRead⟩
    have free : NulFree behind := fun byte member =>
      nulFree_of_readString isRead byte (List.mem_cons_of_mem _ member)
    rw [atoi_of_copied free isStored isShifted] at isParsed
    have fits := (Buffer.store_terminated_eq_ok_iff.mp isStored).1
    rw [List.length_cons] at fits
    exact ⟨terminated, front, behind, text, isFirst, by omega,
      (Except.ok.inj isParsed).symm⟩
  · rintro ⟨terminated, front, behind, text, isFirst, fits, rfl⟩
    obtain ⟨position, isFound, isRead⟩ :=
      (readString_strchr_iff (by decide)).mpr
        ⟨terminated, front, behind, text, isFirst, rfl⟩
    have free : NulFree behind := fun byte member =>
      nulFree_of_readString isRead byte (List.mem_cons_of_mem _ member)
    have short : (equals :: behind).length < 10 := by
      rw [List.length_cons]
      omega
    obtain ⟨copied, isStored, _⟩ := lineTemp.store_terminated short
    obtain ⟨shifted, isShifted, _⟩ :=
      shiftLine_cells copied 9 (by decide)
    refine ⟨position, isFound, copied, ?_, shifted, isShifted,
      atoi_of_copied free isStored isShifted⟩
    rw [strcpy, bind_eq_ok_iff]
    exact ⟨_, isRead, isStored⟩

/-- What the string of the last record, or of the block where there is none,
has to be for `getTemp` to reach the number, the last store apart. -/
theorem getTemp_elsewhere_eq_ok_iff
    {content : List UInt8} {buffer : Buffer 256} {line : Buffer 100}
    {lineTemp : Buffer 10} {value : Int} :
    getTemp .elsewhere (some content) ⟨buffer, some line, lineTemp⟩ =
        .ok value ↔
      (∀ record, record ∈ records 124 content →
        (cText record).length < 100) ∧
        0 ∈ lineCells line (records 124 content) ∧
        ∃ front behind,
          cText (lineCells line (records 124 content)) =
            front ++ equals :: behind ∧
          equals ∉ front ∧ behind.length ≤ 8 ∧
            value = parseNumber behind := by
  simp only [getTemp, terminateLine, bind_eq_ok_iff, follow_eq_ok_iff,
    Except.ok.injEq, exists_eq_left']
  constructor
  · rintro ⟨_, isRead, final, rfl, _, isFound, position, rfl, parsed⟩
    obtain ⟨fit, cells⟩ := readFile_eq_some_iff.mp isRead
    rw [← cells]
    exact ⟨fit, (parsesLine_iff final).mp ⟨position, isFound, parsed⟩⟩
  · rintro ⟨fit, remains⟩
    let final : Buffer 100 := ⟨_, length_lineCells line fit⟩
    have isRead :
        readFile (some content) buffer (some line) = .ok (some final) :=
      readFile_eq_some_iff.mpr ⟨fit, rfl⟩
    obtain ⟨position, isFound, parsed⟩ :=
      (parsesLine_iff final).mpr remains
    exact ⟨_, isRead, final, rfl, _, isFound, position, rfl, parsed⟩

end Esp32Source.ReadTherm
