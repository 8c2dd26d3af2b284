import Esp32Source.ReadTherm.Temperature

/-!
# Leaving the arrays

No run of `getTemp` stays inside its arrays: one that gets to the last store
makes it one byte behind `lineTemp`, and every other run has left them
before.  The runs that get there are those of files in which every record
leaves a byte of `line` and the last one has an equals sign with at most eight
bytes behind it.
-/

namespace Esp32Source.ReadTherm

open Memory Machine

/-- The call makes no access outside its arrays and follows no null
pointer. -/
def StaysInside (file : Option (List UInt8)) (fresh : Uninitialised) :
    Prop :=
  ∃ value, getTemp .faults file fresh = .ok value

/-- The file, or the block where the file is empty, makes every access but
the last store stay inside. -/
def ReachesLastStore (file : Option (List UInt8)) (fresh : Uninitialised) :
    Prop :=
  ∃ content line,
    file = some content ∧ fresh.line = some line ∧
      (∀ record, record ∈ records 124 content →
        (cText record).length < 100) ∧
      0 ∈ lineCells line (records 124 content) ∧
      ∃ front behind,
        cText (lineCells line (records 124 content)) =
          front ++ equals :: behind ∧
        equals ∉ front ∧ behind.length ≤ 8

/-! ## Runs that have no line -/

theorem readFile_ne_some_of_noBlock {file : Option (List UInt8)}
    {buffer : Buffer 256} {line : Buffer 100} :
    readFile file buffer none ≠ .ok (some line) := by
  cases file with
  | none =>
      intro isRead
      cases isRead
  | some content =>
      rw [readFile]
      cases records 124 content with
      | nil =>
          intro isRead
          cases isRead
      | cons record rest =>
          intro isRead
          cases isRead

/-- A run that gets past `readFile` has read an existing file to a block. -/
theorem file_and_line_of_getTemp
    {outside : OutsideStore} {file : Option (List UInt8)}
    {fresh : Uninitialised} {value : Int}
    (parsed : getTemp outside file fresh = .ok value) :
    ∃ content line, file = some content ∧ fresh.line = some line := by
  simp only [getTemp, bind_eq_ok_iff, follow_eq_ok_iff] at parsed
  obtain ⟨_, isRead, line, rfl, _⟩ := parsed
  cases file with
  | none =>
      cases isRead
  | some content =>
      cases block : fresh.line with
      | none =>
          rw [block] at isRead
          exact absurd isRead readFile_ne_some_of_noBlock
      | some line =>
          exact ⟨content, line, rfl, rfl⟩

/-! ## The last store -/

/-- The byte behind `lineTemp` is outside. -/
theorem terminateLine_faults (lineTemp terminated : Buffer 10) :
    terminateLine .faults lineTemp ≠ .ok terminated := by
  intro isStored
  have fits := (Buffer.store_eq_ok_iff.mp isStored).1
  exact absurd fits (by decide)

/-- A call that would parse a number leaves `lineTemp` in front of that. -/
theorem getTemp_faults_of_parsed
    {file : Option (List UInt8)} {fresh : Uninitialised} {value : Int}
    (parsed : getTemp .elsewhere file fresh = .ok value) :
    getTemp .faults file fresh = .error .outOfBounds := by
  simp only [getTemp, bind_eq_ok_iff] at parsed
  obtain ⟨_, isRead, line, isLine, _, isFound, position, isPosition, copied,
    isCopied, shifted, isShifted, _⟩ := parsed
  simp only [getTemp, isRead, isLine, isFound, isPosition, isCopied,
    isShifted, bind, Except.bind]
  rfl

/-- `getTemp` stays inside its arrays for no file.  All accesses but the last
store do exactly when every record is short and the last one has its equals
sign near its end. -/
theorem not_staysInside (file : Option (List UInt8))
    (fresh : Uninitialised) :
    ¬ StaysInside file fresh ∧
      ((∃ value, getTemp .elsewhere file fresh = .ok value) ↔
        ReachesLastStore file fresh) := by
  constructor
  · rintro ⟨value, isInside⟩
    simp only [getTemp, bind_eq_ok_iff] at isInside
    obtain ⟨_, _, _, _, _, _, _, _, _, _, shifted, _, terminated, isStored,
      _⟩ := isInside
    exact terminateLine_faults shifted terminated isStored
  · constructor
    · rintro ⟨value, parsed⟩
      obtain ⟨content, line, rfl, block⟩ := file_and_line_of_getTemp parsed
      obtain ⟨buffer, _, lineTemp⟩ := fresh
      obtain rfl : _ = some line := block
      obtain ⟨fit, terminated, front, behind, text, isFirst, short, _⟩ :=
        getTemp_elsewhere_eq_ok_iff.mp parsed
      exact ⟨content, line, rfl, rfl, fit, terminated, front, behind, text,
        isFirst, short⟩
    · rintro ⟨content, line, rfl, block, fit, terminated, front, behind,
        text, isFirst, short⟩
      obtain ⟨buffer, _, lineTemp⟩ := fresh
      obtain rfl : _ = some line := block
      exact ⟨_, getTemp_elsewhere_eq_ok_iff.mpr ⟨fit, terminated, front,
        behind, text, isFirst, short, rfl⟩⟩

/-- The usual file makes `getTemp` store behind `lineTemp`.  The other ways
out do not need that store: a missing file, a line without an equals sign, and
a long tail. -/
theorem usualFile_not_staysInside :
    ¬ StaysInside (some usualFile.content)
        ⟨Buffer.zero 256, some (Buffer.zero 100), Buffer.zero 10⟩ ∧
      getTemp .elsewhere none
          ⟨Buffer.zero 256, some (Buffer.zero 100), Buffer.zero 10⟩ =
        .error .nullPointer ∧
      getTemp .elsewhere (some (ascii "00 01 crc NO\n"))
          ⟨Buffer.zero 256, some (Buffer.zero 100), Buffer.zero 10⟩ =
        .error .nullPointer ∧
      getTemp .elsewhere (some (ascii "t=23125 or so\n"))
          ⟨Buffer.zero 256, some (Buffer.zero 100), Buffer.zero 10⟩ =
        .error .outOfBounds := by
  refine ⟨?_, by decide +kernel, by decide +kernel, by decide +kernel⟩
  rintro ⟨value, isInside⟩
  have leaves :
      getTemp .faults (some usualFile.content)
          ⟨Buffer.zero 256, some (Buffer.zero 100), Buffer.zero 10⟩ =
        .error .outOfBounds := by
    decide +kernel
  rw [leaves] at isInside
  cases isInside

end Esp32Source.ReadTherm
