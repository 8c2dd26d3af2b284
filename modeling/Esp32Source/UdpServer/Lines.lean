import Esp32Source.UdpServer.Storage
import Esp32Source.Memory.Stdio

/-!
# What is written and what is read back

The writer passes its text to `fprintf` as the format.  A text without percent
signs is written as it is; a pair of percent signs comes out as one, and a
percent sign without a partner is a fault.

The reader returns the first row of `multiline`.  As long as the file has at
most three records, the row holds the first of them and a NUL behind it; a
fourth record would be stored behind the array.
-/

namespace Esp32Source.UdpServer

open Memory Machine

/-- The byte `%`. -/
def percent : UInt8 := 37

/-- The percent signs of the text come in pairs of neighbours. -/
def percentsPaired : List UInt8 → Bool
  | [] => true
  | 37 :: 37 :: rest => percentsPaired rest
  | 37 :: _ => false
  | _ :: rest => percentsPaired rest

/-! ## The output of `fprintf` -/

theorem formatOutput_cons_of_ne {byte : UInt8} (plain : byte ≠ percent)
    (rest : List UInt8) :
    formatOutput (byte :: rest) =
      (formatOutput rest).map (byte :: ·) := by
  rw [formatOutput]
  · rfl
  · intro _ isPercent _
    exact plain isPercent
  · exact plain

theorem formatOutput_pair (rest : List UInt8) :
    formatOutput (37 :: 37 :: rest) =
      (formatOutput rest).map (percent :: ·) :=
  rfl

theorem formatOutput_unpaired {rest : List UInt8}
    (unpaired : ∀ behind, rest = 37 :: behind → False) :
    formatOutput (37 :: rest) = .error .missingArgument := by
  cases rest with
  | nil =>
      rfl
  | cons byte behind =>
      rw [formatOutput]
      exact unpaired

/-- Exactly the texts with paired percent signs are written without a
fault. -/
theorem formatOutput_isOk_iff (text : List UInt8) :
    (∃ written, formatOutput text = .ok written) ↔
      percentsPaired text = true := by
  induction text using percentsPaired.induct with
  | case1 =>
      exact iff_of_true ⟨[], rfl⟩ rfl
  | case2 rest inductionHypothesis =>
      rw [formatOutput_pair, percentsPaired, ← inductionHypothesis]
      simp [map_eq_ok_iff]
  | case3 rest unpaired =>
      rw [formatOutput_unpaired unpaired, percentsPaired]
      · simp
      · exact unpaired
  | case4 byte rest unpaired plain inductionHypothesis =>
      rw [formatOutput_cons_of_ne plain, percentsPaired,
        ← inductionHypothesis]
      · simp [map_eq_ok_iff]
      · exact unpaired
      · exact plain

/-- A text is never longer when it is written, and it keeps its length only
without percent signs. -/
theorem formatOutput_length {text written : List UInt8}
    (formatted : formatOutput text = .ok written) :
    written.length ≤ text.length ∧
      (written.length = text.length → percent ∉ text) := by
  induction text using percentsPaired.induct generalizing written with
  | case1 =>
      cases formatted
      simp
  | case2 rest inductionHypothesis =>
      rw [formatOutput_pair, map_eq_ok_iff] at formatted
      obtain ⟨behind, restFormatted, rfl⟩ := formatted
      have shorter := (inductionHypothesis restFormatted).1
      simp only [List.length_cons]
      constructor
      · omega
      · omega
  | case3 rest unpaired =>
      rw [formatOutput_unpaired unpaired] at formatted
      cases formatted
  | case4 byte rest unpaired plain inductionHypothesis =>
      rw [formatOutput_cons_of_ne plain, map_eq_ok_iff] at formatted
      obtain ⟨behind, restFormatted, rfl⟩ := formatted
      obtain ⟨shorter, keepsLength⟩ := inductionHypothesis restFormatted
      simp only [List.length_cons]
      refine ⟨by omega, ?_⟩
      intro sameLength isMember
      rcases List.mem_cons.mp isMember with isByte | inRest
      · exact plain isByte.symm
      · exact keepsLength (by omega) inRest

/-- Something is written for every text but the empty one. -/
theorem formatOutput_ne_nil {text written : List UInt8}
    (formatted : formatOutput text = .ok written) (nonempty : text ≠ []) :
    written ≠ [] := by
  cases text using percentsPaired.fun_cases with
  | case1 =>
      exact absurd rfl nonempty
  | case2 rest =>
      rw [formatOutput_pair, map_eq_ok_iff] at formatted
      obtain ⟨behind, _, rfl⟩ := formatted
      exact List.cons_ne_nil _ _
  | case3 rest unpaired =>
      rw [formatOutput_unpaired unpaired] at formatted
      cases formatted
  | case4 byte rest unpaired plain =>
      rw [formatOutput_cons_of_ne plain, map_eq_ok_iff] at formatted
      obtain ⟨behind, _, rfl⟩ := formatted
      exact List.cons_ne_nil _ _

/-- Only bytes of the text are written. -/
theorem formatOutput_subset {text written : List UInt8}
    (formatted : formatOutput text = .ok written) :
    ∀ byte, byte ∈ written → byte ∈ text := by
  induction text using percentsPaired.induct generalizing written with
  | case1 =>
      cases formatted
      exact fun byte member => member
  | case2 rest inductionHypothesis =>
      rw [formatOutput_pair, map_eq_ok_iff] at formatted
      obtain ⟨behind, restFormatted, rfl⟩ := formatted
      intro byte member
      rcases List.mem_cons.mp member with isPercent | inBehind
      · rw [isPercent]
        exact List.mem_cons_self
      · have inRest := inductionHypothesis restFormatted byte inBehind
        exact List.mem_cons_of_mem _ (List.mem_cons_of_mem _ inRest)
  | case3 rest unpaired =>
      rw [formatOutput_unpaired unpaired] at formatted
      cases formatted
  | case4 first rest unpaired plain inductionHypothesis =>
      rw [formatOutput_cons_of_ne plain, map_eq_ok_iff] at formatted
      obtain ⟨behind, restFormatted, rfl⟩ := formatted
      intro byte member
      rcases List.mem_cons.mp member with isFirst | inBehind
      · rw [isFirst]
        exact List.mem_cons_self
      · apply List.mem_cons_of_mem
        exact inductionHypothesis restFormatted byte inBehind

theorem formatOutput_of_plain {text : List UInt8}
    (plain : percent ∉ text) : formatOutput text = .ok text := by
  induction text with
  | nil =>
      rfl
  | cons byte rest inductionHypothesis =>
      have notFirst : byte ≠ percent :=
        Ne.symm (List.ne_of_not_mem_cons plain)
      have notRest : percent ∉ rest := List.not_mem_of_not_mem_cons plain
      rw [formatOutput_cons_of_ne notFirst, inductionHypothesis notRest]
      rfl

/-- The text is written as it is exactly when it has no percent sign. -/
theorem written_eq_self_iff {text written : List UInt8}
    (formatted : formatOutput text = .ok written) :
    written = text ↔ percent ∉ text := by
  constructor
  · intro same
    exact (formatOutput_length formatted).2 (congrArg List.length same)
  · intro plain
    rw [formatOutput_of_plain plain] at formatted
    injection formatted with same
    exact same.symm

/-- A byte that is no percent sign splits the text into two that are written
one after the other. -/
theorem formatOutput_append_cons {stop : UInt8} (plain : stop ≠ percent)
    (front behind : List UInt8) :
    formatOutput (front ++ stop :: behind) =
      (formatOutput front).bind fun frontWritten =>
        (formatOutput behind).map fun behindWritten =>
          frontWritten ++ stop :: behindWritten := by
  induction front using percentsPaired.induct with
  | case1 =>
      rw [List.nil_append, formatOutput_cons_of_ne plain]
      rfl
  | case2 rest inductionHypothesis =>
      rw [List.cons_append, List.cons_append, formatOutput_pair,
        formatOutput_pair, inductionHypothesis]
      cases formatOutput rest <;> cases formatOutput behind <;> rfl
  | case3 rest unpaired =>
      have stillUnpaired : ∀ later,
          rest ++ stop :: behind = 37 :: later → False := by
        intro later isPair
        cases rest with
        | nil =>
            injection isPair with isPercent _
            exact plain isPercent
        | cons byte more =>
            injection isPair with isPercent _
            exact unpaired more (by rw [isPercent])
      rw [List.cons_append, formatOutput_unpaired stillUnpaired,
        formatOutput_unpaired unpaired]
      rfl
  | case4 byte rest unpaired plainByte inductionHypothesis =>
      rw [List.cons_append, formatOutput_cons_of_ne plainByte,
        formatOutput_cons_of_ne plainByte, inductionHypothesis]
      cases formatOutput rest <;> cases formatOutput behind <;> rfl

/-! ## Calls that succeed -/

theorem unmountRwWl_mounted {storage : Storage}
    (unmounted : storage.mounted = false) :
    unmountRwWl { storage with mounted := true } = storage := by
  cases storage with
  | mk mounted files =>
      cases unmounted
      rfl

/-- A write that succeeds replaces the content of the file. -/
theorem wearLevellingStorage_writes
    {storage : Storage} {answers : StorageAnswers}
    (unmounted : storage.mounted = false) (succeed : answers.Succeed)
    (fileName : List UInt8) {data written : List UInt8}
    (formatted : formatOutput (cText data) = .ok written) :
    wearLevellingStorage storage fileName data answers =
      .ok ({ storage with
              files :=
                Function.update storage.files fileName (some written) },
        { mount := .ok }) := by
  rw [wearLevellingStorage, mountRwWl_of_unmounted unmounted, succeed.1,
    if_pos rfl]
  dsimp only
  rw [succeed.2, if_pos rfl, formatted]
  dsimp only [bind, Except.bind, pure, Except.pure, unmountRwWl]
  rw [unmounted]

theorem wearLevellingStorageRead_absent
    {storage : Storage} {answers : StorageAnswers}
    (unmounted : storage.mounted = false) (succeed : answers.Succeed)
    {fileName : List UInt8} (absent : storage.files fileName = none) :
    wearLevellingStorageRead storage fileName answers =
      .ok (storage, { mount := .ok }) := by
  rw [wearLevellingStorageRead, mountRwWl_of_unmounted unmounted, succeed.1,
    if_pos rfl]
  dsimp only
  rw [absent, unmountRwWl_mounted unmounted]

/-! ## Calls that may fail -/

/-- The call gets its file open: the partition is not mounted, and the mount
and the `fopen` succeed. -/
def StorageAnswers.opens (answers : StorageAnswers) (mounted : Bool) :
    Bool :=
  !mounted && answers.mountSucceeds && answers.fopenSucceeds

/-- Behind a write the partition is mounted if it was, or if the file could
not be opened. -/
def StorageAnswers.leavesMounted (answers : StorageAnswers)
    (mounted : Bool) : Bool :=
  mounted || (answers.mountSucceeds && !answers.fopenSucceeds)

/-- The storage behind a write of the text, however its calls go. -/
def Storage.written (storage : Storage) (fileName text : List UInt8)
    (answers : StorageAnswers) : Storage where
  mounted := answers.leavesMounted storage.mounted
  files :=
    if answers.opens storage.mounted then
      Function.update storage.files fileName (some text)
    else storage.files

theorem StorageAnswers.opens_iff {answers : StorageAnswers} :
    answers.opens false = true ↔ answers.Succeed := by
  simp [opens, Succeed]

theorem wearLevellingStorage_written (storage : Storage)
    (fileName : List UInt8) {data text : List UInt8}
    (formatted : formatOutput (cText data) = .ok text)
    (answers : StorageAnswers) :
    ∃ reply, wearLevellingStorage storage fileName data answers =
      .ok (storage.written fileName text answers, reply) := by
  obtain ⟨mounted, files⟩ := storage
  rw [wearLevellingStorage, mountRwWl, Storage.written,
    StorageAnswers.opens, StorageAnswers.leavesMounted, formatted]
  cases mounted <;> cases answers.mountSucceeds <;>
    cases answers.fopenSucceeds <;> exact ⟨_, rfl⟩

theorem Storage.written_of_succeed {storage : Storage}
    {answers : StorageAnswers} (unmounted : storage.mounted = false)
    (succeed : answers.Succeed) (fileName text : List UInt8) :
    storage.written fileName text answers =
      { storage with
        files := Function.update storage.files fileName (some text) } := by
  obtain ⟨mounted, files⟩ := storage
  cases unmounted
  rw [written, StorageAnswers.opens_iff.mpr succeed, if_pos rfl,
    StorageAnswers.leavesMounted, succeed.2, Bool.not_true, Bool.and_false]
  rfl

/-- A file that is not opened is no row, as if there were none. -/
theorem wearLevellingStorageRead_fails {storage : Storage}
    {answers : StorageAnswers} (unmounted : storage.mounted = false)
    (fails : answers.opens false = false) (fileName : List UInt8) :
    ∃ mount, wearLevellingStorageRead storage fileName answers =
      .ok (storage, { mount }) := by
  rw [wearLevellingStorageRead, mountRwWl_of_unmounted unmounted]
  cases mounts : answers.mountSucceeds with
  | false =>
      exact ⟨_, rfl⟩
  | true =>
      have unopened : answers.fopenSucceeds = false := by
        rw [StorageAnswers.opens, mounts] at fails
        exact fails
      rw [if_pos rfl, unopened]
      dsimp only
      rw [unmountRwWl_mounted unmounted]
      cases storage.files fileName <;> exact ⟨_, rfl⟩

/-! ## The first record -/

/-- `fgets` with a count of 128 reads records of at most 127 bytes. -/
theorem fgetsRecord_eq (content : List UInt8) :
    fgetsRecord content = readRecord 127 content := by
  have atMost (limit : Nat) (content : List UInt8) :
      ((content.take limit).findIdx? (· = newline)).elim
          (content.take limit)
          (fun position => (content.take limit).take (position + 1)) =
        readRecord limit content := by
    induction limit generalizing content with
    | zero =>
        rfl
    | succ limit inductionHypothesis =>
        cases content with
        | nil =>
            rfl
        | cons byte behind =>
            rw [List.take_succ_cons, List.findIdx?_cons, readRecord,
              ← inductionHypothesis]
            by_cases isNewline : byte = newline
            · rw [if_pos isNewline, if_pos (by simpa using isNewline)]
              rfl
            · rw [if_neg isNewline, if_neg (by simpa using isNewline)]
              cases (behind.take limit).findIdx? (· = newline) <;> rfl
  rw [← atMost 127 content, fgetsRecord, newline]
  cases (content.take 127).findIdx? (· = 10) <;> rfl

theorem fgetsRecords_eq (content : List UInt8) :
    fgetsRecords content.length content = records 127 content := by
  have within (fuel : Nat) (content : List UInt8) :
      fgetsRecords fuel content = recordsWithin 127 fuel content := by
    induction fuel generalizing content with
    | zero =>
        rfl
    | succ fuel inductionHypothesis =>
        cases content with
        | nil =>
            rfl
        | cons byte behind =>
            rw [recordsWithin_succ (List.cons_ne_nil byte behind),
              ← inductionHypothesis, ← fgetsRecord_eq]
            rfl
  exact within content.length content

theorem length_fgetsRecord_le (content : List UInt8) :
    (fgetsRecord content).length ≤ 127 := by
  rw [fgetsRecord_eq]
  exact length_readRecord_le 127 content

theorem fgetsRecord_isPrefixOf (content : List UInt8) :
    fgetsRecord content <+: content := by
  rw [fgetsRecord_eq]
  exact readRecord_prefix 127 content

/-- A short text without a newline is one record. -/
theorem fgetsRecord_of_line {text : List UInt8}
    (short : text.length ≤ 127) (oneLine : 10 ∉ text) :
    fgetsRecord text = text := by
  rw [fgetsRecord_eq]
  exact readRecord_of_plain oneLine short

theorem length_of_mem_fgetsRecords (content : List UInt8) :
    ∀ record, record ∈ fgetsRecords content.length content →
      record.length ≤ 127 := by
  intro record member
  rw [fgetsRecords_eq] at member
  exact length_le_of_mem_records member

theorem fgetsRecords_of_nonempty {content : List UInt8}
    (nonempty : content ≠ []) :
    ∃ later, fgetsRecords content.length content =
      fgetsRecord content :: later := by
  rw [fgetsRecords_eq, fgetsRecord_eq,
    records_of_ne_nil (by decide) nonempty]
  exact ⟨_, rfl⟩

/-- A file of one line is read as one record. -/
theorem fgetsRecords_of_line {text : List UInt8} (nonempty : text ≠ [])
    (short : text.length ≤ 127) (oneLine : 10 ∉ text) :
    fgetsRecords text.length text = [text] := by
  rw [fgetsRecords_eq]
  exact records_of_plain oneLine short nonempty

/-- Storing records from row `i` on leaves the rows in front of it. -/
theorem storeRecords_keeps (records : List (List UInt8))
    (short : ∀ record, record ∈ records → record.length ≤ 127)
    (line : Buffer 128) (multiline : Buffer 384) {i : Nat}
    (fit : i + records.length ≤ 3) :
    ∃ stored, storeRecords line multiline i records = .ok stored ∧
      ∀ start length, start + length ≤ 128 * i →
        stored.window start length = multiline.window start length := by
  induction records generalizing line multiline i with
  | nil =>
      exact ⟨multiline, rfl, fun _ _ _ => rfl⟩
  | cons record records inductionHypothesis =>
      have recordShort := short record List.mem_cons_self
      rw [List.length_cons] at fit
      obtain ⟨filled, lineStored, _⟩ :=
        line.store_terminated (Nat.lt_succ_of_le recordShort)
      obtain ⟨extended, rowStored, _⟩ :=
        multiline.store_of_fits (128 * i) filled.cells (by
          rw [filled.length_cells]
          omega)
      have next : (i + 1) % 256 = i + 1 := by omega
      obtain ⟨stored, laterStored, keeps⟩ :=
        inductionHypothesis
          (fun later member => short later (List.mem_cons_of_mem _ member))
          filled extended (i := i + 1) (by omega)
      refine ⟨stored, ?_, ?_⟩
      · rw [storeRecords, lineStored]
        dsimp only [bind, Except.bind]
        rw [rowStored]
        dsimp only
        rw [next]
        exact laterStored
      · intro start length inFront
        rw [keeps start length (by omega)]
        exact Buffer.window_store_disjoint rowStored (Or.inl inFront)

/-- The first row holds the first record and a NUL. -/
theorem storeRecords_first {record : List UInt8}
    {records : List (List UInt8)}
    (short : ∀ other, other ∈ record :: records → other.length ≤ 127)
    (line : Buffer 128) (multiline : Buffer 384)
    (fit : (record :: records).length ≤ 3) :
    ∃ stored behind,
      storeRecords line multiline 0 (record :: records) = .ok stored ∧
        stored.window 0 128 = record ++ 0 :: behind := by
  have recordShort := short record List.mem_cons_self
  rw [List.length_cons] at fit
  obtain ⟨filled, lineStored, lineCells⟩ :=
    line.store_terminated (Nat.lt_succ_of_le recordShort)
  obtain ⟨extended, rowStored, _⟩ :=
    multiline.store_of_fits 0 filled.cells (by
      rw [filled.length_cells]
      omega)
  obtain ⟨stored, laterStored, keeps⟩ :=
    storeRecords_keeps records
      (fun later member => short later (List.mem_cons_of_mem _ member))
      filled extended (i := 1) (by omega)
  have firstRow : stored.window 0 128 = filled.cells := by
    rw [keeps 0 128 (by omega)]
    have read := Buffer.window_store_self rowStored
    rw [filled.length_cells] at read
    exact read
  refine ⟨stored, line.cells.drop (record.length + 1), ?_, ?_⟩
  · rw [storeRecords, lineStored]
    dsimp only [bind, Except.bind]
    rw [Nat.mul_zero, rowStored]
    exact laterStored
  · rw [firstRow, lineCells]

/-- The row that a read returns: the first record of a file of one to three
records, as a string. -/
theorem wearLevellingStorageRead_row
    {storage : Storage} {answers : StorageAnswers}
    (unmounted : storage.mounted = false) (succeed : answers.Succeed)
    {fileName content : List UInt8}
    (holds : storage.files fileName = some content)
    (nonempty : content ≠ [])
    (fits : (fgetsRecords content.length content).length ≤ 3) :
    ∃ row behind,
      wearLevellingStorageRead storage fileName answers =
          .ok (storage, { mount := .ok, row := some row }) ∧
        row.length = 128 ∧
        row = fgetsRecord content ++ 0 :: behind := by
  have short := length_of_mem_fgetsRecords content
  obtain ⟨later, records⟩ := fgetsRecords_of_nonempty nonempty
  rw [records] at fits short
  obtain ⟨stored, behind, success, firstRow⟩ :=
    storeRecords_first short answers.line answers.multiline fits
  refine ⟨stored.window 0 128, behind, ?_,
    stored.length_window (by decide), firstRow⟩
  rw [wearLevellingStorageRead, mountRwWl_of_unmounted unmounted, succeed.1,
    if_pos rfl]
  dsimp only
  rw [holds, succeed.2]
  dsimp only
  rw [records, success]
  dsimp only [bind, Except.bind, pure, Except.pure]
  rw [unmountRwWl_mounted unmounted]

/-! ## Files of any length -/

/-- Every record that is stored takes a row of its own, and there are
three. -/
theorem rows_of_storeRecords (records : List (List UInt8))
    {line : Buffer 128} {multiline stored : Buffer 384} {i : Nat}
    (start : i ≤ 3)
    (success : storeRecords line multiline i records = .ok stored) :
    i + records.length ≤ 3 := by
  induction records generalizing line multiline i with
  | nil =>
      exact start
  | cons record records inductionHypothesis =>
      obtain ⟨filled, _, success⟩ := bind_eq_ok_iff.mp success
      obtain ⟨extended, rowStored, success⟩ := bind_eq_ok_iff.mp success
      have inside := (Buffer.store_eq_ok_iff.mp rowStored).1
      rw [filled.length_cells] at inside
      -- the index does not wrap, since row 3 is no row any more
      have next : (i + 1) % 256 = i + 1 := by omega
      rw [next] at success
      have behind := inductionHypothesis (by omega) success
      rw [List.length_cons]
      omega

/-- The read loop stores only into the rows of `multiline`, and the text that
is returned is the first record of the file. -/
structure ReadsFirstRecord (storage : Storage) (fileName : List UInt8)
    (answers : StorageAnswers) (content : List UInt8) : Prop where
  insideRows : ∃ stored,
    storeRecords answers.line answers.multiline 0
      (fgetsRecords content.length content) = .ok stored
  firstRecord : ∃ next reply row,
    wearLevellingStorageRead storage fileName answers = .ok (next, reply) ∧
      reply.row = some row ∧ cText row = fgetsRecord content

/-- A file that can be opened is read as its first record exactly when it has
at most three records. -/
theorem reads_first_record_iff
    {storage : Storage} {answers : StorageAnswers}
    (unmounted : storage.mounted = false) (succeed : answers.Succeed)
    {fileName content : List UInt8}
    (holds : storage.files fileName = some content)
    (nonempty : content ≠ []) (free : NulFree content) :
    ReadsFirstRecord storage fileName answers content ↔
      (fgetsRecords content.length content).length ≤ 3 := by
  constructor
  · intro reads
    obtain ⟨stored, success⟩ := reads.insideRows
    have rows := rows_of_storeRecords _ (Nat.zero_le 3) success
    rwa [Nat.zero_add] at rows
  · intro fits
    have short := length_of_mem_fgetsRecords content
    obtain ⟨stored, success, _⟩ :=
      storeRecords_keeps _ short answers.line answers.multiline (i := 0)
        (by rwa [Nat.zero_add])
    obtain ⟨row, behind, returned, _, shape⟩ :=
      wearLevellingStorageRead_row unmounted succeed holds nonempty fits
    have recordFree : NulFree (fgetsRecord content) := by
      intro byte member
      exact free byte ((fgetsRecord_isPrefixOf content).subset member)
    have text : cText row = fgetsRecord content := by
      rw [shape, cText_terminated recordFree]
    exact ⟨⟨stored, success⟩, _, _, row, returned, rfl, text⟩

/-- An unmounted partition with one file. -/
def storageHolding (fileName content : List UInt8) : Storage where
  mounted := false
  files := Function.update (fun _ => none) fileName (some content)

/-- The two lines that the boot code stores come back as the first of them. -/
theorem reads_first_record_iff_two_lines :
    ReadsFirstRecord (storageHolding (ascii "f") (ascii "cafe\n8765\n"))
      (ascii "f") { mountSucceeds := true, fopenSucceeds := true }
      (ascii "cafe\n8765\n") :=
  (reads_first_record_iff rfl ⟨rfl, rfl⟩ rfl (by decide) (by decide)).mpr
    (by decide +kernel)

/-- A file of four short lines: the fourth is stored behind the array. -/
theorem fourthLine_stored_outside :
    (wearLevellingStorageRead
        (storageHolding (ascii "f") (ascii "1\n2\n3\n4\n")) (ascii "f")
        { mountSucceeds := true, fopenSucceeds := true }).map (·.2) =
      .error .outOfBounds ∧
    ¬ ∀ (storage : Storage) (answers : StorageAnswers)
        (fileName content : List UInt8),
      storage.mounted = false → answers.Succeed →
        storage.files fileName = some content → content ≠ [] →
          NulFree content →
            ReadsFirstRecord storage fileName answers content := by
  have fault : (wearLevellingStorageRead
      (storageHolding (ascii "f") (ascii "1\n2\n3\n4\n")) (ascii "f")
      { mountSucceeds := true, fopenSucceeds := true }).map (·.2) =
        .error .outOfBounds := by
    decide +kernel
  refine ⟨fault, ?_⟩
  intro always
  obtain ⟨_, next, reply, row, returned, _⟩ :=
    always (storageHolding (ascii "f") (ascii "1\n2\n3\n4\n"))
      { mountSucceeds := true, fopenSucceeds := true } (ascii "f")
      (ascii "1\n2\n3\n4\n") rfl ⟨rfl, rfl⟩ rfl (by decide) (by decide)
  rw [returned] at fault
  cases fault

end Esp32Source.UdpServer
