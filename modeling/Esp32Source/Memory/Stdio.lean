import Mathlib.Data.List.Basic

/-!
# Reading a stream record by record

`fgets` with a count of `limit + 1` reads at most `limit` bytes, up to and
including the first newline.  A program that calls it with one count until the
stream ends sees the content of the stream as a list of records.

A line that fits is a record of its own, whatever comes behind it, so that a
stream of such lines is read as the list of its lines.
-/

namespace Esp32Source.Memory

/-- The newline byte. -/
def newline : UInt8 := 10

/-- The next record: at most `limit` bytes, up to and including the first
newline. -/
def readRecord : Nat → List UInt8 → List UInt8
  | 0, _ => []
  | _, [] => []
  | limit + 1, byte :: rest =>
      if byte = newline then [byte] else byte :: readRecord limit rest

/-- The records of a stream, with a fuel that bounds their number. -/
def recordsWithin (limit : Nat) : Nat → List UInt8 → List (List UInt8)
  | 0, _ => []
  | _, [] => []
  | fuel + 1, content =>
      let record := readRecord limit content
      record :: recordsWithin limit fuel (content.drop record.length)

/-- The records of a stream.  Every record takes at least one byte, so that
the length of the content is enough fuel. -/
def records (limit : Nat) (content : List UInt8) : List (List UInt8) :=
  recordsWithin limit content.length content

/-- A line whose only newline is its last byte. -/
def IsLine (line : List UInt8) : Prop :=
  ∃ text, line = text ++ [newline] ∧ newline ∉ text

/-! ## One record -/

theorem length_readRecord_le (limit : Nat) (content : List UInt8) :
    (readRecord limit content).length ≤ limit := by
  induction limit generalizing content with
  | zero =>
      simp [readRecord]
  | succ limit inductionHypothesis =>
      cases content with
      | nil =>
          simp [readRecord]
      | cons byte rest =>
          rw [readRecord]
          split
          · simp
          · rw [List.length_cons]
            exact Nat.succ_le_succ (inductionHypothesis rest)

theorem readRecord_prefix (limit : Nat) (content : List UInt8) :
    readRecord limit content <+: content := by
  induction limit generalizing content with
  | zero =>
      exact List.nil_prefix
  | succ limit inductionHypothesis =>
      cases content with
      | nil =>
          exact List.nil_prefix
      | cons byte rest =>
          rw [readRecord]
          split
          · exact List.prefix_append [byte] rest
          · exact (List.prefix_cons_inj byte).mpr (inductionHypothesis rest)

theorem readRecord_ne_nil {limit : Nat} (positive : 0 < limit)
    {content : List UInt8} (nonempty : content ≠ []) :
    readRecord limit content ≠ [] := by
  obtain ⟨limit, rfl⟩ := Nat.exists_eq_add_one.mpr positive
  obtain ⟨byte, rest, rfl⟩ := List.exists_cons_of_ne_nil nonempty
  rw [readRecord]
  split <;> exact List.cons_ne_nil _ _

/-- Text without newline that fits is read whole. -/
theorem readRecord_of_plain {limit : Nat} {text : List UInt8}
    (plain : newline ∉ text) (fits : text.length ≤ limit) :
    readRecord limit text = text := by
  induction text generalizing limit with
  | nil =>
      cases limit <;> rfl
  | cons byte text inductionHypothesis =>
      obtain ⟨limit, rfl⟩ := Nat.exists_eq_add_one.mpr
        (Nat.lt_of_lt_of_le (Nat.succ_pos text.length) fits)
      have notNewline : byte ≠ newline :=
        Ne.symm (List.ne_of_not_mem_cons plain)
      rw [readRecord, if_neg notNewline,
        inductionHypothesis (List.not_mem_of_not_mem_cons plain)
          (Nat.le_of_succ_le_succ fits)]

/-- A line that fits is the next record. -/
theorem readRecord_line {limit : Nat} {line : List UInt8}
    (isLine : IsLine line) (fits : line.length ≤ limit)
    (rest : List UInt8) :
    readRecord limit (line ++ rest) = line := by
  obtain ⟨text, rfl, plain⟩ := isLine
  rw [List.length_append, List.length_singleton] at fits
  rw [List.append_assoc, List.singleton_append]
  induction text generalizing limit with
  | nil =>
      obtain ⟨limit, rfl⟩ := Nat.exists_eq_add_one.mpr fits
      rw [List.nil_append, readRecord, if_pos rfl]
      rfl
  | cons byte text inductionHypothesis =>
      obtain ⟨limit, rfl⟩ := Nat.exists_eq_add_one.mpr
        (Nat.lt_of_lt_of_le (Nat.succ_pos _) fits)
      have notNewline : byte ≠ newline :=
        Ne.symm (List.ne_of_not_mem_cons plain)
      rw [List.cons_append, readRecord, if_neg notNewline,
        inductionHypothesis (List.not_mem_of_not_mem_cons plain)
          (Nat.le_of_succ_le_succ fits), List.cons_append]

/-! ## All records -/

theorem recordsWithin_succ {limit fuel : Nat} {content : List UInt8}
    (nonempty : content ≠ []) :
    recordsWithin limit (fuel + 1) content =
      readRecord limit content ::
        recordsWithin limit fuel
          (content.drop (readRecord limit content).length) := by
  rw [recordsWithin]
  exact nonempty

/-- Every record takes a byte of the stream that has not ended. -/
theorem length_drop_readRecord_lt {limit : Nat} (positive : 0 < limit)
    {content : List UInt8} (nonempty : content ≠ []) :
    (content.drop (readRecord limit content).length).length <
      content.length := by
  have taken : 0 < (readRecord limit content).length :=
    List.length_pos_of_ne_nil (readRecord_ne_nil positive nonempty)
  have holdsBytes : 0 < content.length := List.length_pos_of_ne_nil nonempty
  rw [List.length_drop]
  omega

/-- Any two fuels that are enough for every byte give the same records. -/
theorem recordsWithin_of_enough {limit : Nat} (positive : 0 < limit)
    {fuel other : Nat} {content : List UInt8}
    (enough : content.length ≤ fuel)
    (otherEnough : content.length ≤ other) :
    recordsWithin limit fuel content =
      recordsWithin limit other content := by
  induction fuel generalizing other content with
  | zero =>
      rw [List.length_eq_zero_iff.mp (Nat.le_zero.mp enough)]
      cases other <;> rfl
  | succ fuel inductionHypothesis =>
      by_cases ended : content = []
      · rw [ended]
        cases other <;> rfl
      · have shorter := length_drop_readRecord_lt positive ended
        obtain ⟨other, rfl⟩ :=
          Nat.exists_eq_add_one.mpr (Nat.zero_lt_of_lt
            (Nat.lt_of_lt_of_le shorter otherEnough))
        rw [recordsWithin_succ ended, recordsWithin_succ ended]
        congr 1
        apply inductionHypothesis
        · omega
        · omega

@[simp]
theorem records_nil (limit : Nat) : records limit [] = [] :=
  rfl

/-- A stream that has not ended is read as its first record and the records
of what is behind it. -/
theorem records_of_ne_nil {limit : Nat} (positive : 0 < limit)
    {content : List UInt8} (nonempty : content ≠ []) :
    records limit content =
      readRecord limit content ::
        records limit
          (content.drop (readRecord limit content).length) := by
  have shorter := length_drop_readRecord_lt positive nonempty
  obtain ⟨count, isCount⟩ :=
    Nat.exists_eq_add_one.mpr (Nat.zero_lt_of_lt shorter)
  rw [records, isCount, recordsWithin_succ nonempty]
  congr 1
  apply recordsWithin_of_enough positive
  · omega
  · exact Nat.le_refl _

theorem records_line {limit : Nat} {line : List UInt8}
    (isLine : IsLine line) (fits : line.length ≤ limit)
    (rest : List UInt8) :
    records limit (line ++ rest) = line :: records limit rest := by
  have nonempty : line ≠ [] := by
    obtain ⟨text, rfl, _⟩ := isLine
    simp
  have positive : 0 < limit :=
    Nat.lt_of_lt_of_le (List.length_pos_of_ne_nil nonempty) fits
  rw [records_of_ne_nil positive (List.append_ne_nil_of_left_ne_nil
    nonempty rest), readRecord_line isLine fits, List.drop_left]

/-- Lines that fit are read one by one, and then what comes behind them. -/
theorem records_lines {limit : Nat} {lines : List (List UInt8)}
    (areLines : ∀ line, line ∈ lines → IsLine line)
    (fit : ∀ line, line ∈ lines → line.length ≤ limit)
    (rest : List UInt8) :
    records limit (lines.flatten ++ rest) = lines ++ records limit rest := by
  induction lines with
  | nil =>
      rfl
  | cons line lines inductionHypothesis =>
      rw [List.forall_mem_cons] at areLines fit
      rw [List.flatten_cons, List.append_assoc,
        records_line areLines.1 fit.1,
        inductionHypothesis areLines.2 fit.2, List.cons_append]

/-- A last text without newline is the last record. -/
theorem records_of_plain {limit : Nat} {text : List UInt8}
    (plain : newline ∉ text) (fits : text.length ≤ limit)
    (nonempty : text ≠ []) :
    records limit text = [text] := by
  have positive : 0 < limit :=
    Nat.lt_of_lt_of_le (List.length_pos_of_ne_nil nonempty) fits
  rw [records_of_ne_nil positive nonempty, readRecord_of_plain plain fits,
    List.drop_length, records_nil]

theorem length_le_of_mem_records {limit : Nat} {content record : List UInt8}
    (member : record ∈ records limit content) : record.length ≤ limit := by
  have within : ∀ fuel content,
      record ∈ recordsWithin limit fuel content →
        record.length ≤ limit := by
    intro fuel
    induction fuel with
    | zero =>
        intro content inNone
        simp [recordsWithin] at inNone
    | succ fuel inductionHypothesis =>
        intro content inRecords
        by_cases ended : content = []
        · rw [ended, recordsWithin] at inRecords
          · cases inRecords
          · exact Nat.succ_ne_zero fuel
        · rw [recordsWithin_succ ended] at inRecords
          rcases List.mem_cons.mp inRecords with isFirst | isLater
          · rw [isFirst]
            exact length_readRecord_le limit content
          · exact inductionHypothesis _ isLater
  exact within content.length content member

end Esp32Source.Memory
