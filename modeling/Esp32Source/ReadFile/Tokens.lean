import Esp32Source.ReadFile.Console

/-!
# The token of a line

`fgets` stores the line behind its terminator's old place, and the decoding
works in place: it leaves two converted characters and a NUL.  The two bytes
are copied to a row of `array20` without a terminator of their own.  They
still read as the token, since the row behind its first two bytes is zero.
-/

namespace Esp32Source.ReadFile

open Memory Machine

/-- A line as the file has it. -/
def DataLine.record (line : DataLine) : List UInt8 :=
  line.text ++ [newline]

/-! ## One line -/

theorem convert_ne_zero {character : UInt8} (notNul : character ≠ 0) :
    convert character ≠ 0 := by
  unfold convert
  split
  · decide
  · split
    · decide
    · exact notNul

theorem DataLine.length_record_lt (line : DataLine) :
    line.record.length < 20 := by
  rw [DataLine.record, List.length_append]
  exact Nat.succ_lt_succ (Nat.lt_succ_of_le line.atMost)

/-- The four characters that every line starts with. -/
theorem DataLine.exists_four (line : DataLine) :
    ∃ first second third fourth rest,
      line.text = first :: second :: third :: fourth :: rest := by
  have atLeast := line.atLeast
  generalize line.text = text at atLeast
  match text, atLeast with
  | first :: second :: third :: fourth :: rest, _ =>
      exact ⟨first, second, third, fourth, rest, rfl⟩

theorem length_token (line : DataLine) : (token line).length = 2 := by
  have atLeast := line.atLeast
  rw [token, List.length_map, List.length_take, List.length_drop]
  omega

theorem nulFree_token (line : DataLine) : NulFree (token line) := by
  intro byte member
  obtain ⟨character, inText, rfl⟩ := List.mem_map.mp member
  exact convert_ne_zero
    (line.free character (List.mem_of_mem_drop (List.mem_of_mem_take inText)))

theorem load_of_cells {buffer : Buffer 20} (front : List UInt8)
    {rest : List UInt8} {character : UInt8} {position : Nat}
    (cells : buffer.cells = front ++ character :: rest)
    (atFront : front.length = position) :
    buffer.load position 1 = .ok [character] := by
  have inRange : position + 1 ≤ 20 := by
    rw [← buffer.length_cells, cells, List.length_append, List.length_cons]
    omega
  rw [Buffer.load_of_fits _ _ _ inRange, Buffer.window, Memory.window, cells,
    List.drop_left' atFront]
  rfl

theorem store_of_cells {buffer : Buffer 20} (front : List UInt8)
    {rest : List UInt8} {old : UInt8} (new : UInt8) {position : Nat}
    (cells : buffer.cells = front ++ old :: rest)
    (atFront : front.length = position) :
    ∃ stored, buffer.store position [new] = .ok stored ∧
      stored.cells = front ++ new :: rest := by
  have inRange : position + [new].length ≤ 20 := by
    rw [← buffer.length_cells, cells, List.length_append]
    simp only [List.length_cons, List.length_nil]
    omega
  obtain ⟨stored, isStored, storedCells⟩ :=
    buffer.store_of_fits position [new] inRange
  refine ⟨stored, isStored, ?_⟩
  rw [storedCells, cells, ← atFront, patch_append_left]
  rfl

/-- The character behind a front part is converted in place. -/
theorem convertAt_cells {line : Buffer 20} (front : List UInt8)
    {rest : List UInt8} {character : UInt8} {position : Nat}
    (cells : line.cells = front ++ character :: rest)
    (atFront : front.length = position) :
    ∃ converted, convertAt line position = .ok converted ∧
      converted.cells = front ++ convert character :: rest := by
  obtain ⟨converted, isConverted, convertedCells⟩ :=
    store_of_cells front (convert character) cells atFront
  refine ⟨converted, ?_, convertedCells⟩
  rw [convertAt, load_of_cells front cells atFront]
  exact isConverted

/-- Decoding leaves the two converted characters and a NUL at the front. -/
theorem decodeLine_cells {line : Buffer 20}
    {first second third fourth : UInt8} {rest : List UInt8}
    (cells : line.cells = first :: second :: third :: fourth :: rest) :
    ∃ decoded,
      decodeLine line = .ok decoded ∧
        decoded.cells =
          convert third :: convert fourth :: 0 :: fourth :: rest := by
  obtain ⟨withThird, storesThird, cells1⟩ :=
    store_of_cells [] third cells rfl
  obtain ⟨withFourth, storesFourth, cells2⟩ :=
    store_of_cells [third] fourth cells1 rfl
  obtain ⟨terminated, terminates, cells3⟩ :=
    store_of_cells [third, fourth] 0 cells2 rfl
  obtain ⟨converted, converts, cells4⟩ :=
    convertAt_cells [] cells3 rfl
  obtain ⟨decoded, convertsNext, cells5⟩ :=
    convertAt_cells [convert third] cells4 rfl
  refine ⟨decoded, ?_, cells5⟩
  simp only [decodeLine, bind_eq_ok_iff]
  exact ⟨_, load_of_cells [first, second] cells rfl, withThird, storesThird,
    _, load_of_cells [third, second, third] cells1 rfl, withFourth,
    storesFourth, terminated, terminates, converted, converts, convertsNext⟩

/-- `fgets` and the decoding leave the token of the line. -/
theorem decodes_line (screenLine : Buffer 20) (line : DataLine) :
    ∃ stored decoded,
      screenLine.store 0 (line.record ++ [0]) = .ok stored ∧
        decodeLine stored = .ok decoded ∧
          readString decoded 0 = .ok (token line) := by
  obtain ⟨first, second, third, fourth, rest, text⟩ := line.exists_four
  obtain ⟨stored, isStored, storedCells⟩ :=
    screenLine.store_terminated line.length_record_lt
  rw [DataLine.record, text] at storedCells
  obtain ⟨decoded, isDecoded, cells⟩ := decodeLine_cells storedCells
  have isToken : token line = [convert third, convert fourth] := by
    rw [token, text]
    rfl
  have free := nulFree_token line
  refine ⟨stored, decoded, isStored, isDecoded, ?_⟩
  rw [isToken] at free ⊢
  rw [readString_eq_ok_iff, List.drop_zero, cells]
  exact ⟨by simp, (cText_terminated free _).symm⟩

/-- The token replaces the one above it in its row. -/
theorem stores_token {above : List UInt8} {row : Buffer 20}
    (padded : ZeroPadded above row.cells) (aboveShort : above.length ≤ 2)
    (line : DataLine) :
    ∃ stored,
      row.store 0 (strncpyBytes (token line) 2) = .ok stored ∧
        ZeroPadded (token line) stored.cells := by
  have length := length_token line
  have copied : strncpyBytes (token line) 2 = token line := by
    conv_lhs => rw [← length]
    exact strncpyBytes_of_nulFree (nulFree_token line)
  have fits : (token line).length ≤ 20 := by
    rw [length]
    decide
  obtain ⟨stored, isStored, cells⟩ :=
    row.store_of_fits 0 (token line) (by rw [Nat.zero_add]; exact fits)
  rw [patch_zero] at cells
  have covers : overlay (token line) above = token line :=
    (overlay_eq_new_iff _ _).mpr (by rw [length]; exact aboveShort)
  have overlaid : ZeroPadded (overlay (token line) above)
      (overlay (token line) row.cells) :=
    padded.overlay (by rw [row.length_cells]; exact fits)
  rw [covers] at overlaid
  exact ⟨stored, by rw [copied]; exact isStored, by rw [cells]; exact overlaid⟩

theorem readString_of_zeroPadded {text : List UInt8} {row : Buffer 20}
    (padded : ZeroPadded text row.cells) (free : NulFree text)
    (short : text.length ≤ 2) :
    readString row 0 = .ok text := by
  have whole := padded.cText_eq free
  rw [readString_eq_ok_iff, List.drop_zero, whole]
  refine ⟨?_, rfl⟩
  rw [← length_cText_lt_iff, whole, row.length_cells]
  omega

/-- A pass shows the token of a line and stores it in its row; only the
counter can stop it. -/
theorem showLine_of_line (screen : Screen) (ii : Fin 20) (line : DataLine)
    {above : List UInt8}
    (padded : ZeroPadded above (screen.array20 ii).cells)
    (aboveFree : NulFree above) (aboveShort : above.length ≤ 2) :
    ∃ decoded row,
      ZeroPadded (token line) row.cells ∧
        showLine screen ii line.record =
          (increment screen.numberOfLine).map fun numberOfLine => {
            line := decoded, numberOfLine
            array20 := Function.update screen.array20 ii row
            calls :=
              screen.calls ++
                printToken (token line = above) (token line) } := by
  obtain ⟨stored, decoded, isStored, isDecoded, isToken⟩ :=
    decodes_line screen.line line
  obtain ⟨row, isRow, rowPadded⟩ := stores_token padded aboveShort line
  refine ⟨decoded, row, rowPadded, ?_⟩
  rw [showLine, isStored]
  dsimp only [access, Except.mapError, bind, Except.bind]
  rw [isDecoded]
  dsimp only
  rw [isToken, readString_of_zeroPadded padded aboveFree aboveShort]
  dsimp only
  rw [isRow]
  dsimp only
  cases increment screen.numberOfLine <;> rfl

end Esp32Source.ReadFile
