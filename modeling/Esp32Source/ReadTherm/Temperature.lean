import Esp32Source.ReadTherm.Sensor

/-!
# The parsed temperature

A sensor file has any number of lines, and its last one ends in `t=` and the
temperature in thousandths of a degree.  Every line is a record of its own, so
the last line is what `readFile` returns.  Its first equals sign is the one in
front of the number, and the number with its sign and newline is short enough
for `lineTemp`, so that `getTemp` parses exactly that number.
-/

namespace Esp32Source.ReadTherm

open Memory

/-- The last line of a sensor file: some text, `t=`, the temperature, and a
newline or none. -/
def temperatureLine (text : List UInt8) (thousandths : Int)
    (endsLine : Bool) : List UInt8 :=
  text ++ ascii "t=" ++ decimal thousandths ++
    (if endsLine then [newline] else [])

/-- A `w1_slave` file with a temperature in its last line. -/
structure SensorFile where
  earlier : List (List UInt8)
  text : List UInt8
  thousandths : Int
  endsLine : Bool
  areLines : ∀ line, line ∈ earlier → IsLine line
  earlierFree : ∀ line, line ∈ earlier → NulFree line
  earlierShort : ∀ line, line ∈ earlier → line.length ≤ 99
  textFree : NulFree text
  oneLine : newline ∉ text
  noEquals : equals ∉ text
  atLeast : -55000 ≤ thousandths
  atMost : thousandths ≤ 125000
  short : (temperatureLine text thousandths endsLine).length ≤ 99

namespace SensorFile

def lastLine (file : SensorFile) : List UInt8 :=
  temperatureLine file.text file.thousandths file.endsLine

def content (file : SensorFile) : List UInt8 :=
  file.earlier.flatten ++ file.lastLine

/-- What follows the equals sign of the last line. -/
def number (file : SensorFile) : List UInt8 :=
  decimal file.thousandths ++ (if file.endsLine then [newline] else [])

/-! ## The last line -/

theorem lastLine_eq (file : SensorFile) :
    file.lastLine = file.text ++ [116] ++ equals :: file.number := by
  have sign : ascii "t=" = [116, equals] := rfl
  rw [lastLine, temperatureLine, sign, number]
  simp

/-- A byte of a decimal form is neither a NUL nor a newline. -/
theorem plain_of_mem_decimal {number : Int} {byte : UInt8}
    (member : byte ∈ decimal number) : byte ≠ 0 ∧ byte ≠ newline := by
  rcases mem_decimal member with rfl | isDigit
  · decide
  · constructor
    · rintro rfl
      exact absurd isDigit (by decide)
    · rintro rfl
      exact absurd isDigit (by decide)

theorem nulFree_number (file : SensorFile) : NulFree file.number := by
  apply NulFree.append
  · exact fun byte member => (plain_of_mem_decimal member).1
  · cases file.endsLine with
    | false =>
        exact nulFree_nil
    | true =>
        decide

theorem nulFree_lastLine (file : SensorFile) : NulFree file.lastLine := by
  rw [lastLine_eq, List.append_assoc]
  apply file.textFree.append
  intro byte member
  rcases List.mem_cons.mp member with rfl | inNumber
  · decide
  · rcases List.mem_cons.mp inNumber with rfl | inNumber
    · decide
    · exact file.nulFree_number byte inNumber

/-- The last line is read as one record. -/
theorem records_lastLine (file : SensorFile) :
    records 124 file.lastLine = [file.lastLine] := by
  have short : file.lastLine.length ≤ 124 :=
    Nat.le_trans file.short (by decide)
  have plain : newline ∉ file.text ++ ascii "t=" ++
      decimal file.thousandths := by
    rw [List.append_assoc, List.mem_append, List.mem_append]
    rintro (inText | inSign | inNumber)
    · exact file.oneLine inText
    · exact absurd inSign (by decide)
    · exact (plain_of_mem_decimal inNumber).2 rfl
  cases ends : file.endsLine with
  | false =>
      have shape : file.lastLine =
          file.text ++ ascii "t=" ++ decimal file.thousandths := by
        rw [lastLine, temperatureLine, ends]
        exact List.append_nil _
      rw [shape] at short ⊢
      refine records_of_plain plain short ?_
      simp [ascii]
  | true =>
      have isLine : IsLine file.lastLine := by
        refine ⟨_, ?_, plain⟩
        rw [lastLine, temperatureLine, ends]
        rfl
      have alone := records_line isLine short []
      rw [List.append_nil, records_nil] at alone
      exact alone

/-- The number and its newline leave a byte of `lineTemp`. -/
theorem length_number_le (file : SensorFile) : file.number.length ≤ 8 := by
  have digits : (decimal file.thousandths).length ≤ 6 := by
    have atLeast := file.atLeast
    have atMost := file.atMost
    apply length_decimal_le (by decide)
    · rw [show (10 ^ 5 : Nat) = 100000 from rfl]
      omega
    · rw [show (10 ^ (5 + 1) : Nat) = 1000000 from rfl]
      omega
  have behind : (if file.endsLine then [newline] else []).length ≤ 1 := by
    cases file.endsLine <;> decide
  rw [number, List.length_append]
  omega

theorem parseNumber_number (file : SensorFile) :
    parseNumber file.number = file.thousandths := by
  apply parseNumber_decimal
  intro byte behind shape
  cases ends : file.endsLine with
  | false =>
      rw [ends] at shape
      cases shape
  | true =>
      rw [ends] at shape
      cases shape
      rfl

/-! ## The whole file -/

theorem records_content (file : SensorFile) :
    records 124 file.content = file.earlier ++ [file.lastLine] := by
  rw [content, records_lines file.areLines
    (fun record member =>
      Nat.le_trans (file.earlierShort record member) (by decide)),
    file.records_lastLine]

theorem records_fit (file : SensorFile) {record : List UInt8}
    (member : record ∈ file.earlier ++ [file.lastLine]) :
    (cText record).length < 100 := by
  rcases List.mem_append.mp member with inFront | isLast
  · rw [cText_of_nulFree (file.earlierFree record inFront)]
    exact Nat.lt_succ_of_le (file.earlierShort record inFront)
  · rw [List.mem_singleton.mp isLast, cText_of_nulFree file.nulFree_lastLine]
    exact Nat.lt_succ_of_le file.short

/-- The first equals sign of the last line is the one in front of the
number. -/
theorem noEquals_inFront (file : SensorFile) :
    equals ∉ file.text ++ [116] := by
  rw [List.mem_append, List.mem_singleton]
  rintro (inText | isSign)
  · exact file.noEquals inText
  · exact absurd isSign (by decide)

/-- The number is parsed, if `line` is a block. -/
theorem parses (file : SensorFile) (buffer : Buffer 256) (line : Buffer 100)
    (lineTemp : Buffer 10) :
    getTemp .elsewhere (some file.content) ⟨buffer, some line, lineTemp⟩ =
      .ok file.thousandths := by
  obtain ⟨rest, cells⟩ := lineCells_concat line file.earlier file.lastLine
  rw [cText_of_nulFree file.nulFree_lastLine] at cells
  rw [getTemp_elsewhere_eq_ok_iff, file.records_content, cells,
    cText_terminated file.nulFree_lastLine]
  exact ⟨fun record => file.records_fit, by simp, file.text ++ [116],
    file.number, file.lastLine_eq, file.noEquals_inFront,
    file.length_number_le, file.parseNumber_number.symm⟩

end SensorFile

/-! ## What `getTemp` parses -/

/-- `getTemp` parses the number of every sensor file, whatever the arrays held
before. -/
theorem getTemp_content (file : SensorFile) (buffer : Buffer 256)
    (line : Buffer 100) (lineTemp : Buffer 10) :
    getTemp .elsewhere (some file.content) ⟨buffer, some line, lineTemp⟩ =
      .ok file.thousandths :=
  file.parses buffer line lineTemp

/-- The two lines that a sensor at 23.125 degrees shows. -/
def usualFile : SensorFile where
  earlier := [ascii "72 01 4b 46 7f ff 0e 10 57 : crc=57 YES\n"]
  text := ascii "72 01 4b 46 7f ff 0e 10 57 "
  thousandths := 23125
  endsLine := true
  areLines := by
    intro line member
    rw [List.mem_singleton.mp member]
    exact ⟨ascii "72 01 4b 46 7f ff 0e 10 57 : crc=57 YES", rfl, by decide⟩
  earlierFree := by decide
  earlierShort := by decide
  textFree := by decide
  oneLine := by decide
  noEquals := by decide
  atLeast := by decide
  atMost := by decide
  short := by decide +kernel

example :
    getTemp .elsewhere (some usualFile.content)
        ⟨Buffer.zero 256, some (Buffer.zero 100), Buffer.zero 10⟩ =
      .ok 23125 := by
  decide +kernel

end Esp32Source.ReadTherm
