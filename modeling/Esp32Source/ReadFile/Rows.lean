import Esp32Source.ReadFile.Tokens

/-!
# The rows of tokens

While the tokens are printed, `array20` holds the latest twenty of them, each
followed by zeros only.  A pass of the inner loop compares the new token with
the one it replaces, which is the token twenty places before it.  So every
row shows what it should, the last one also where the file ends inside it.

The number of lines is an `int`: files with fewer than 2^31 lines are shown,
and the program counts no more.
-/

namespace Esp32Source.ReadFile

open Memory Machine

/-! ## What holds between two passes -/

/-- The tokens that were shown so far, with the given number of columns of
the current row still to come. -/
structure Shows (columns : Nat) (tokens : List (List UInt8))
    (screen : Screen) : Prop where
  count : screen.numberOfLine = tokens.length
  column : tokens.length % 20 = (20 - columns) % 20
  calls : screen.calls ++
      (if columns = 0 then [.print (ascii "\n")] else []) =
    tokenRows tokens
  history : HoldsLatest (show 0 < 20 by decide) [] tokens
    fun ii => cText (screen.array20 ii).cells
  padded : ∀ ii, ZeroPadded (cText (screen.array20 ii).cells)
    (screen.array20 ii).cells
  short : ∀ ii, (cText (screen.array20 ii).cells).length ≤ 2

/-! ## One more token -/

theorem tokenCalls_append {tokens : List (List UInt8)} (next : List UInt8)
    {k : Nat} (earlier : k < tokens.length) :
    tokenCalls (tokens ++ [next]) k = tokenCalls tokens k := by
  rw [tokenCalls, tokenCalls, List.getElem?_append_left earlier,
    List.getElem?_append_left (Nat.lt_of_le_of_lt (Nat.sub_le k 20) earlier)]

theorem tokenRows_concat (tokens : List (List UInt8)) (next : List UInt8) :
    tokenRows (tokens ++ [next]) =
      tokenRows tokens ++
        (tokenCalls (tokens ++ [next]) tokens.length ++
          rowEnd tokens.length) := by
  rw [tokenRows, List.length_append, List.length_singleton,
    List.range_succ, List.flatMap_append, List.flatMap_singleton, tokenRows]
  congr 1
  apply List.flatMap_congr
  intro k member
  rw [tokenCalls_append next (List.mem_range.mp member)]

/-- The comparison with the row is the comparison with the token twenty places
before. -/
theorem tokenCalls_concat {columns : Nat} {tokens : List (List UInt8)}
    {screen : Screen} (shows : Shows columns tokens screen)
    {next : List UInt8} (nonempty : next ≠ []) :
    tokenCalls (tokens ++ [next]) tokens.length =
      printToken
        (next = cText (screen.array20
          (slotOf (show 0 < 20 by decide) tokens.length)).cells) next := by
  rw [tokenCalls, List.getElem?_concat_length]
  dsimp only
  rcases Nat.lt_or_ge tokens.length 20 with few | many
  · have isBlank := shows.history.next_of_few few
    rw [isBlank, if_pos (Or.inl few), decide_eq_false nonempty]
    rfl
  · have isAbove := shows.history.next_of_many many
    rw [List.getElem?_append_left (by omega), isAbove]
    by_cases same : next = cText (screen.array20
        (slotOf (show 0 < 20 by decide) tokens.length)).cells
    · rw [decide_eq_true same, if_neg]
      · rfl
      · rintro (isFew | isOther)
        · omega
        · exact isOther (congrArg some same.symm)
    · rw [decide_eq_false same, if_pos]
      · rfl
      · exact Or.inr fun isSame => same (Option.some.inj isSame).symm

theorem increment_of_small {numberOfLine : Nat}
    (small : numberOfLine + 1 < 2147483648) :
    increment numberOfLine = .ok (numberOfLine + 1) :=
  if_pos small

/-- A row of `array20` holds the token, and the other rows are kept. -/
theorem Shows.rowAt {columns : Nat} {tokens : List (List UInt8)}
    {screen : Screen} (shows : Shows columns tokens screen)
    {ii : Fin 20} {row : Buffer 20} {line : DataLine}
    (rowPadded : ZeroPadded (token line) row.cells) (j : Fin 20) :
    ZeroPadded
        (cText (Function.update screen.array20 ii row j).cells)
        (Function.update screen.array20 ii row j).cells ∧
      (cText (Function.update screen.array20 ii row j).cells).length ≤ 2 ∧
      cText (Function.update screen.array20 ii row j).cells =
        Function.update (fun j => cText (screen.array20 j).cells) ii
          (token line) j := by
  by_cases same : j = ii
  · rw [same, Function.update_self, Function.update_self,
      rowPadded.cText_eq (nulFree_token line)]
    exact ⟨rowPadded, Nat.le_of_eq (length_token line), rfl⟩
  · rw [Function.update_of_ne same, Function.update_of_ne same]
    exact ⟨shows.padded j, shows.short j, rfl⟩

/-- A pass of the inner loop shows the next token. -/
theorem Shows.next {columns : Nat} {tokens : List (List UInt8)}
    {screen : Screen} (shows : Shows (columns + 1) tokens screen)
    (inRow : columns < 20) (line : DataLine)
    (small : tokens.length + 1 < 2147483648) :
    ∃ next,
      showLine screen (columnAt columns) line.record = .ok next ∧
        Shows columns (tokens ++ [token line]) next := by
  have column := shows.column
  have isSlot : columnAt columns =
      slotOf (show 0 < 20 by decide) tokens.length := by
    apply Fin.ext
    rw [slotOf, columnAt]
    dsimp only
    omega
  rw [isSlot]
  have nonempty : token line ≠ [] := by
    intro isEmpty
    have length := length_token line
    rw [isEmpty] at length
    cases length
  obtain ⟨decoded, row, rowPadded, isShown⟩ :=
    showLine_of_line screen _ line (shows.padded _)
      (nulFree_cText _) (shows.short _)
  rw [shows.count, increment_of_small small] at isShown
  refine ⟨_, isShown, ?_, ?_, ?_, ?_, ?_, ?_⟩
  · rw [List.length_append]
    rfl
  · rw [List.length_append, List.length_singleton]
    omega
  · have ends : rowEnd tokens.length =
        if columns = 0 then [.print (ascii "\n")] else [] := by
      rw [rowEnd]
      exact if_congr (by omega) rfl rfl
    have before := shows.calls
    rw [if_neg (Nat.succ_ne_zero columns), List.append_nil] at before
    rw [tokenRows_concat, tokenCalls_concat shows nonempty, ends, ← before,
      List.append_assoc]
  · have table := shows.history.concat (token line)
    have same :
        (fun j => cText
          (Function.update screen.array20
            (slotOf (show 0 < 20 by decide) tokens.length) row j).cells) =
          Function.update (fun j => cText (screen.array20 j).cells)
            (slotOf (show 0 < 20 by decide) tokens.length) (token line) :=
      funext fun j => (shows.rowAt rowPadded j).2.2
    rw [← same] at table
    exact table
  · exact fun j => (shows.rowAt rowPadded j).1
  · exact fun j => (shows.rowAt rowPadded j).2.1

/-! ## The loops over the lines -/

/-- With enough lines the inner loop fills the row. -/
theorem Shows.fullRow {columns : Nat} (atMost : columns ≤ 20)
    {tokens : List (List UInt8)} {screen : Screen}
    (shows : Shows columns tokens screen) {lines : List DataLine}
    (enough : columns ≤ lines.length)
    (small : tokens.length + lines.length < 2147483648) :
    ∃ next,
      showRow columns screen (lines.map DataLine.record) =
          .ok (next, (lines.drop columns).map DataLine.record, true) ∧
        Shows 0 (tokens ++ (lines.take columns).map token) next := by
  induction columns generalizing tokens screen lines with
  | zero =>
      refine ⟨screen, rfl, ?_⟩
      rw [List.take_zero, List.map_nil, List.append_nil]
      exact shows
  | succ columns inductionHypothesis =>
      obtain ⟨line, rest, rfl⟩ :=
        List.exists_cons_of_length_pos (Nat.zero_lt_of_lt enough)
      rw [List.length_cons] at enough small
      obtain ⟨shown, isShown, showsMore⟩ :=
        shows.next atMost line (by omega)
      obtain ⟨next, isRow, showsRow⟩ :=
        inductionHypothesis (Nat.le_of_succ_le atMost) showsMore
          (Nat.le_of_succ_le_succ enough) (by
            rw [List.length_append, List.length_singleton]
            omega)
      refine ⟨next, ?_, ?_⟩
      · rw [List.map_cons, showRow, isShown]
        exact isRow
      · rw [List.append_assoc] at showsRow
        exact showsRow

/-- At the end of the file the inner loop leaves the row and ends the outer
loop. -/
theorem Shows.lastRow {columns : Nat} (atMost : columns ≤ 20)
    {tokens : List (List UInt8)} {screen : Screen}
    (shows : Shows columns tokens screen) {lines : List DataLine}
    (few : lines.length < columns)
    (small : tokens.length + lines.length < 2147483648) :
    ∃ next left,
      showRow columns screen (lines.map DataLine.record) =
          .ok (next, [], false) ∧
        left ≠ 0 ∧ Shows left (tokens ++ lines.map token) next := by
  induction columns generalizing tokens screen lines with
  | zero =>
      exact absurd few (Nat.not_lt_zero _)
  | succ columns inductionHypothesis =>
      cases lines with
      | nil =>
          refine ⟨screen, columns + 1, rfl, Nat.succ_ne_zero columns, ?_⟩
          rw [List.map_nil, List.append_nil]
          exact shows
      | cons line rest =>
          rw [List.length_cons] at few small
          obtain ⟨shown, isShown, showsMore⟩ :=
            shows.next atMost line (by omega)
          obtain ⟨next, left, isRow, notDone, showsRow⟩ :=
            inductionHypothesis (Nat.le_of_succ_le atMost) showsMore
              (Nat.lt_of_succ_lt_succ few) (by
                rw [List.length_append, List.length_singleton]
                omega)
          refine ⟨next, left, ?_, notDone, ?_⟩
          · rw [List.map_cons, showRow, isShown]
            exact isRow
          · rw [List.append_assoc] at showsRow
            exact showsRow

/-- The newline behind a full row starts the next one. -/
theorem Shows.startRow {tokens : List (List UInt8)} {screen : Screen}
    (shows : Shows 0 tokens screen) :
    Shows 20 tokens
      { screen with calls := screen.calls ++ [.print (ascii "\n")] } where
  count := shows.count
  column := shows.column
  calls := by
    rw [if_neg (by decide), List.append_nil, ← shows.calls, if_pos rfl]
  history := shows.history
  padded := shows.padded
  short := shows.short

/-- Enough passes of the outer loop show all lines and end. -/
theorem Shows.allRows {tokens : List (List UInt8)} {screen : Screen}
    (shows : Shows 20 tokens screen) (lines : List DataLine)
    (small : tokens.length + lines.length < 2147483648) :
    ∃ passes final,
      showRows passes screen (lines.map DataLine.record) =
          .ok (some final) ∧
        final.numberOfLine = tokens.length + lines.length ∧
        final.calls =
          tokenRows (tokens ++ lines.map token) ++
            [.print (ascii "\n")] := by
  rcases Nat.lt_or_ge lines.length 20 with few | enough
  · obtain ⟨next, left, isRow, notDone, showsRow⟩ :=
      shows.lastRow (Nat.le_refl 20) few small
    refine ⟨1,
      { next with calls := next.calls ++ [.print (ascii "\n")] }, ?_, ?_,
      ?_⟩
    · rw [showRows, isRow]
      rfl
    · rw [showsRow.count, List.length_append, List.length_map]
    · have isCalls := showsRow.calls
      rw [if_neg notDone, List.append_nil] at isCalls
      rw [← isCalls]
  · obtain ⟨next, isRow, showsRow⟩ :=
      shows.fullRow (Nat.le_refl 20) enough small
    have shown : (tokens ++ (lines.take 20).map token).length =
        tokens.length + 20 := by
      rw [List.length_append, List.length_map, List.length_take,
        Nat.min_eq_left enough]
    have behind : (lines.drop 20).length = lines.length - 20 :=
      List.length_drop
    obtain ⟨passes, final, isEnd, count, calls⟩ :=
      showsRow.startRow.allRows (lines.drop 20) (by omega)
    refine ⟨passes + 1, final, ?_, by omega, ?_⟩
    · rw [showRows, isRow]
      exact isEnd
    · rw [calls, List.append_assoc, ← List.map_append,
        List.take_append_drop]
termination_by lines.length

/-! ## The number of lines -/

theorem showLine_counts {screen shown : Screen} {ii : Fin 20}
    {record : List UInt8}
    (isShown : showLine screen ii record = .ok shown) :
    shown.numberOfLine = screen.numberOfLine + 1 ∧
      shown.numberOfLine < 2147483648 := by
  rw [showLine] at isShown
  simp only [bind_eq_ok_iff] at isShown
  obtain ⟨_, _, _, _, _, _, _, _, _, _, numberOfLine, isNumber, isResult⟩ :=
    isShown
  have isNext : shown.numberOfLine = numberOfLine := by
    rw [← Except.ok.inj isResult]
  rw [isNext]
  unfold increment at isNumber
  split at isNumber
  · rename_i small
    rw [← Except.ok.inj isNumber]
    exact ⟨rfl, small⟩
  · cases isNumber

/-- A row counts the records that it takes, and takes all of them where it
ends the outer loop. -/
theorem showRow_counts {columns : Nat} {screen next : Screen}
    {records rest : List (List UInt8)} {breakWhile : Bool}
    (isRow : showRow columns screen records = .ok (next, rest, breakWhile))
    (small : screen.numberOfLine < 2147483648) :
    next.numberOfLine + rest.length =
        screen.numberOfLine + records.length ∧
      next.numberOfLine < 2147483648 ∧
      (breakWhile = false → rest = []) := by
  induction columns generalizing screen records with
  | zero =>
      cases isRow
      exact ⟨rfl, small, fun isEnd => by cases isEnd⟩
  | succ columns inductionHypothesis =>
      cases records with
      | nil =>
          cases isRow
          exact ⟨rfl, small, fun _ => rfl⟩
      | cons record records =>
          rw [showRow, bind_eq_ok_iff] at isRow
          obtain ⟨shown, isShown, isRest⟩ := isRow
          obtain ⟨isNext, stillSmall⟩ := showLine_counts isShown
          obtain ⟨counted, isSmall, isEnd⟩ :=
            inductionHypothesis isRest stillSmall
          rw [List.length_cons]
          exact ⟨by omega, isSmall, isEnd⟩

theorem showRows_counts {passes : Nat} {screen final : Screen}
    {records : List (List UInt8)}
    (isEnd : showRows passes screen records = .ok (some final))
    (small : screen.numberOfLine < 2147483648) :
    screen.numberOfLine + records.length < 2147483648 := by
  induction passes generalizing screen records with
  | zero =>
      cases isEnd
  | succ passes inductionHypothesis =>
      rw [showRows, bind_eq_ok_iff] at isEnd
      obtain ⟨⟨next, rest, breakWhile⟩, isRow, isRest⟩ := isEnd
      obtain ⟨counted, isSmall, takesAll⟩ := showRow_counts isRow small
      cases breakWhile with
      | false =>
          rw [takesAll rfl, List.length_nil] at counted
          omega
      | true =>
          have continues :
              showRows passes
                  { next with calls := next.calls ++ [.print (ascii "\n")] }
                  rest =
                .ok (some final) :=
            isRest
          have isLess := inductionHypothesis continues isSmall
          dsimp only at isLess
          omega

/-- A run that ends has counted the records of its file. -/
theorem main_counts {passes : Nat} {content : List UInt8}
    {line : Buffer 20} {calls : List Call}
    (isEnd : main passes (some content) line = .ok (some calls)) :
    (records 19 content).length < 2147483648 := by
  rw [main, bind_eq_ok_iff] at isEnd
  obtain ⟨ended, isRows, isCalls⟩ := isEnd
  cases ended with
  | none =>
      cases isCalls
  | some final =>
      have counted := showRows_counts isRows (show 0 < 2147483648 by decide)
      rw [Nat.zero_add] at counted
      exact counted

/-! ## The whole program -/

/-- The program ends, and has shown all lines and their number. -/
def ShowsLines (lines : List DataLine) (line : Buffer 20) : Prop :=
  ∃ passes,
    main passes (some (content lines)) line = .ok (some (shown lines))

/-- Every line is a record. -/
theorem records_content (lines : List DataLine) :
    records 19 (content lines) = lines.map DataLine.record := by
  have areLines : ∀ line, line ∈ lines.map DataLine.record →
      IsLine line := by
    intro line member
    obtain ⟨dataLine, _, rfl⟩ := List.mem_map.mp member
    exact ⟨dataLine.text, rfl, dataLine.oneLine⟩
  have fit : ∀ line, line ∈ lines.map DataLine.record →
      line.length ≤ 19 := by
    intro line member
    obtain ⟨dataLine, _, rfl⟩ := List.mem_map.mp member
    exact Nat.le_of_lt_succ dataLine.length_record_lt
  have allRecords := records_lines areLines fit []
  rw [List.append_nil, records_nil, List.append_nil] at allRecords
  exact allRecords

theorem shows_nothing (line : Buffer 20) :
    Shows 20 [] ⟨line, fun _ => Buffer.zero 20, 0, []⟩ where
  count := rfl
  column := rfl
  calls := rfl
  history := HoldsLatest.nil
  padded := fun _ => zeroPadded_replicate 20
  short := fun _ => Nat.zero_le 2

/-- The program shows a file exactly when it has fewer than 2^31 lines. -/
theorem showsLines_iff (lines : List DataLine) (line : Buffer 20) :
    ShowsLines lines line ↔ lines.length < 2147483648 := by
  constructor
  · rintro ⟨passes, isEnd⟩
    have counted := main_counts isEnd
    rw [records_content, List.length_map] at counted
    exact counted
  · intro small
    obtain ⟨passes, final, isEnd, count, calls⟩ :=
      (shows_nothing line).allRows lines (by
        rw [List.length_nil, Nat.zero_add]
        exact small)
    rw [List.length_nil, Nat.zero_add] at count
    rw [List.nil_append] at calls
    refine ⟨passes, ?_⟩
    rw [main, records_content, isEnd, shown]
    dsimp only [bind, Except.bind, pure, Except.pure, Option.map]
    rw [calls, count, List.append_assoc]
    rfl

/-- The counter stops the program at a file of 2^31 lines. -/
theorem manyLines_not_shown :
    ¬ ShowsLines
      (List.replicate 2147483648
        ⟨ascii "0000", by decide, by decide, by decide, by decide⟩)
      (Buffer.zero 20) := by
  rintro ⟨passes, isEnd⟩
  have counted := main_counts isEnd
  rw [records_content, List.length_map, List.length_replicate] at counted
  exact absurd counted (Nat.lt_irrefl _)

end Esp32Source.ReadFile
