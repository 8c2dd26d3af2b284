import Esp32Source.Machine.History
import Esp32Source.Memory.CString

/-!
# Copying and searching C strings

The copying functions have no bound: `strcpy` and `strcat` store as many bytes
as the source has, and its terminator.  The searching functions read up to the
terminator of the string, and a string without one is read out of bounds.

Two strings that are appended one behind the other are appended at once.
-/

namespace Esp32Source.Memory

open Machine

variable {size sourceSize : Nat}

/-- A pointer that is followed: `none` is the null pointer. -/
def follow {α : Type} (pointer : Option α) : Except Fault α :=
  match pointer with
  | none => .error .nullPointer
  | some target => .ok target

/-- The string that starts at `position`. -/
def readString (buffer : Buffer size) (position : Nat) :
    Except Fault (List UInt8) := do
  let length ← strlen buffer position
  return buffer.window position length

/-- `strcpy`, from the string that starts at `position` of the source. -/
def strcpy (target : Buffer size) (source : Buffer sourceSize)
    (position : Nat) : Except Fault (Buffer size) := do
  let text ← readString source position
  target.store 0 (text ++ [0])

/-- `strcat` of a string to the string in the buffer. -/
def strcat (target : Buffer size) (text : List UInt8) :
    Except Fault (Buffer size) := do
  let length ← strlen target 0
  target.store length (text ++ [0])

/-- `strchr`: where the string in the buffer first holds the byte, or `none`
for the null pointer. -/
def strchr (buffer : Buffer size) (byte : UInt8) :
    Except Fault (Option Nat) :=
  let passed := buffer.cells.takeWhile fun cell => cell ≠ byte ∧ cell ≠ 0
  match buffer.cells[passed.length]? with
  | none => .error .outOfBounds
  | some cell => .ok (if cell = byte then some passed.length else none)

/-- `strstr`: where the needle first starts in the text. -/
def strstr (text needle : List UInt8) : Option Nat :=
  (List.range (text.length + 1)).find? fun position =>
    needle.isPrefixOf (text.drop position)

/-! ## Reading -/

theorem follow_eq_ok_iff {α : Type} {pointer : Option α} {target : α} :
    follow pointer = .ok target ↔ pointer = some target := by
  cases pointer with
  | none =>
      simp [follow]
  | some found =>
      simp [follow]

/-- A region with a NUL is its text, a NUL, and something else. -/
theorem exists_terminated {region : List UInt8} (found : 0 ∈ region) :
    ∃ rest, region = cText region ++ 0 :: rest := by
  obtain ⟨front, rest, rfl, isFirst⟩ := List.eq_append_cons_of_mem found
  have free : NulFree front := fun byte member isNul =>
    isFirst (isNul ▸ member)
  exact ⟨rest, by rw [cText_terminated free]⟩

theorem cText_append_zero (region behind : List UInt8) :
    cText (region ++ 0 :: behind) = cText region := by
  obtain ⟨rest, shape⟩ := terminated_eq_cText region behind
  rw [shape, cText_terminated (nulFree_cText region)]

theorem take_cText (region : List UInt8) :
    region.take (cText region).length = cText region :=
  (List.prefix_iff_eq_take.mp (List.takeWhile_prefix _)).symm

/-- A string is what is in front of the first NUL, and there has to be
one. -/
theorem readString_eq_ok_iff {buffer : Buffer size} {position : Nat}
    {text : List UInt8} :
    readString buffer position = .ok text ↔
      0 ∈ buffer.cells.drop position ∧
        text = cText (buffer.cells.drop position) := by
  rw [readString, bind_eq_ok_iff]
  constructor
  · rintro ⟨length, measured, isText⟩
    obtain ⟨found, isLength⟩ := strlen_eq_ok_iff.mp measured
    refine ⟨found, ?_⟩
    rw [← Except.ok.inj isText, Buffer.window, Memory.window, isLength,
      take_cText]
  · rintro ⟨found, isText⟩
    refine ⟨_, strlen_eq_ok_iff.mpr ⟨found, rfl⟩, ?_⟩
    rw [isText, Buffer.window, Memory.window, take_cText]
    rfl

/-- What is read is a string. -/
theorem nulFree_of_readString {buffer : Buffer size} {position : Nat}
    {text : List UInt8} (isRead : readString buffer position = .ok text) :
    NulFree text := by
  rw [(readString_eq_ok_iff.mp isRead).2]
  exact nulFree_cText _

/-! ## Copying -/

theorem strcpy_eq_ok_iff {target stored : Buffer size}
    {source : Buffer sourceSize} {position : Nat} :
    strcpy target source position = .ok stored ↔
      0 ∈ source.cells.drop position ∧
        (cText (source.cells.drop position)).length < size ∧
        stored.cells =
          overlay (cText (source.cells.drop position) ++ [0])
            target.cells := by
  rw [strcpy, bind_eq_ok_iff]
  constructor
  · rintro ⟨text, isRead, isStored⟩
    obtain ⟨found, rfl⟩ := readString_eq_ok_iff.mp isRead
    obtain ⟨fits, cells⟩ := Buffer.store_eq_ok_iff.mp isStored
    rw [List.length_append, List.length_singleton, Nat.zero_add] at fits
    rw [patch_zero] at cells
    exact ⟨found, fits, cells⟩
  · rintro ⟨found, fits, cells⟩
    refine ⟨_, readString_eq_ok_iff.mpr ⟨found, rfl⟩,
      Buffer.store_eq_ok_iff.mpr ⟨?_, ?_⟩⟩
    · rw [List.length_append, List.length_singleton, Nat.zero_add]
      exact fits
    · rw [patch_zero, cells]

/-- After an append the buffer holds the old string, the new one, a NUL, and
what was behind them. -/
theorem strcat_eq_ok_iff {target stored : Buffer size}
    {text : List UInt8} :
    strcat target text = .ok stored ↔
      0 ∈ target.cells ∧
        (cText target.cells).length + text.length < size ∧
        stored.cells =
          cText target.cells ++ text ++
            0 :: target.cells.drop
              ((cText target.cells).length + text.length + 1) := by
  have shape :
      patch (cText target.cells).length (text ++ [0]) target.cells =
        cText target.cells ++ text ++
          0 :: target.cells.drop
            ((cText target.cells).length + text.length + 1) := by
    rw [patch, take_cText, List.length_append, List.length_singleton,
      ← Nat.add_assoc, List.append_assoc, List.append_assoc,
      List.append_assoc, List.singleton_append]
  rw [strcat, bind_eq_ok_iff, ← shape]
  constructor
  · rintro ⟨length, measured, isStored⟩
    obtain ⟨found, rfl⟩ := strlen_eq_ok_iff.mp measured
    rw [List.drop_zero] at found isStored
    obtain ⟨fits, cells⟩ := Buffer.store_eq_ok_iff.mp isStored
    rw [List.length_append, List.length_singleton] at fits
    exact ⟨found, by omega, cells⟩
  · rintro ⟨found, fits, cells⟩
    refine ⟨_, strlen_eq_ok_iff.mpr ⟨found, rfl⟩, ?_⟩
    refine Buffer.store_eq_ok_iff.mpr ⟨?_, cells⟩
    rw [List.drop_zero, List.length_append, List.length_singleton]
    omega

/-- A string is appended where it and the old one leave a byte. -/
theorem strcat_of_fits {target : Buffer size} {text : List UInt8}
    (found : 0 ∈ target.cells)
    (fits : (cText target.cells).length + text.length < size) :
    ∃ stored, strcat target text = .ok stored := by
  obtain ⟨stored, isStored, _⟩ :=
    target.store_of_fits (cText target.cells).length (text ++ [0]) (by
      rw [List.length_append, List.length_singleton]
      omega)
  refine ⟨stored, ?_⟩
  rw [strcat, bind_eq_ok_iff]
  exact ⟨_, strlen_eq_ok_iff.mpr ⟨found, rfl⟩, isStored⟩

theorem cText_of_strcat {target stored : Buffer size} {text : List UInt8}
    (free : NulFree text) (appended : strcat target text = .ok stored) :
    cText stored.cells = cText target.cells ++ text := by
  rw [(strcat_eq_ok_iff.mp appended).2.2]
  exact cText_terminated ((nulFree_cText target.cells).append free) _

/-- What was appended is the whole string exactly when it was appended to the
empty one. -/
theorem strcat_whole_iff {target : Buffer size} {text : List UInt8}
    (free : NulFree text) :
    (∃ stored,
        strcat target text = .ok stored ∧ cText stored.cells = text) ↔
      target.cells.head? = some 0 ∧ text.length < size := by
  have blank : target.cells.head? = some 0 ↔
      0 ∈ target.cells ∧ cText target.cells = [] := by
    cases target.cells with
    | nil =>
        simp
    | cons first rest =>
        by_cases isNul : first = 0
        · simp [isNul]
        · simp [isNul, cText]
  rw [blank]
  constructor
  · rintro ⟨stored, appended, whole⟩
    obtain ⟨found, fits, _⟩ := strcat_eq_ok_iff.mp appended
    rw [cText_of_strcat free appended, List.append_left_eq_self] at whole
    rw [whole, List.length_nil, Nat.zero_add] at fits
    exact ⟨⟨found, whole⟩, fits⟩
  · rintro ⟨⟨found, isEmpty⟩, fits⟩
    have bothFit : (cText target.cells).length + text.length < size := by
      rw [isEmpty, List.length_nil, Nat.zero_add]
      exact fits
    obtain ⟨stored, appended⟩ := strcat_of_fits found bothFit
    refine ⟨stored, appended, ?_⟩
    rw [cText_of_strcat free appended, isEmpty, List.nil_append]

/-- What lies behind an appended string is what lay there before. -/
theorem drop_of_strcat {target stored : Buffer size} {text : List UInt8}
    (appended : strcat target text = .ok stored) {position : Nat}
    (behind : (cText target.cells).length + text.length < position) :
    stored.cells.drop position = target.cells.drop position := by
  obtain ⟨further, rfl⟩ := Nat.exists_eq_add_of_lt behind
  have length : (cText target.cells ++ text).length =
      (cText target.cells).length + text.length :=
    List.length_append
  rw [(strcat_eq_ok_iff.mp appended).2.2, Nat.add_assoc, ← length,
    List.drop_length_add_append, List.drop_succ_cons, List.drop_drop,
    length]
  congr 1
  omega

/-- Two appends are one append of both strings. -/
theorem strcat_strcat_eq_ok_iff {target stored : Buffer size}
    {first second : List UInt8} (free : NulFree first) :
    (∃ middle,
        strcat target first = .ok middle ∧
          strcat middle second = .ok stored) ↔
      strcat target (first ++ second) = .ok stored := by
  constructor
  · rintro ⟨middle, appendsFirst, appendsSecond⟩
    obtain ⟨found, _, _⟩ := strcat_eq_ok_iff.mp appendsFirst
    obtain ⟨_, fits, cells⟩ := strcat_eq_ok_iff.mp appendsSecond
    rw [cText_of_strcat free appendsFirst, List.length_append] at fits cells
    rw [drop_of_strcat appendsFirst (by omega)] at cells
    refine strcat_eq_ok_iff.mpr ⟨found, ?_, ?_⟩
    · rw [List.length_append]
      omega
    · rw [cells, List.length_append, ← List.append_assoc _ first second,
        ← Nat.add_assoc _ first.length]
  · intro appendsBoth
    obtain ⟨found, fits, cells⟩ := strcat_eq_ok_iff.mp appendsBoth
    rw [List.length_append] at fits cells
    have firstFits : (cText target.cells).length + first.length < size := by
      omega
    obtain ⟨middle, appendsFirst⟩ := strcat_of_fits found firstFits
    refine ⟨middle, appendsFirst, strcat_eq_ok_iff.mpr ⟨?_, ?_, ?_⟩⟩
    · rw [(strcat_eq_ok_iff.mp appendsFirst).2.2]
      simp
    · rw [cText_of_strcat free appendsFirst, List.length_append]
      omega
    · rw [cText_of_strcat free appendsFirst, List.length_append,
        drop_of_strcat appendsFirst (by omega), cells,
        ← List.append_assoc _ first second, ← Nat.add_assoc _ first.length]

/-- Storing the terminator that a string already has changes nothing. -/
theorem store_terminator {buffer : Buffer size} {text rest : List UInt8}
    (shape : buffer.cells = text ++ 0 :: rest) :
    buffer.store text.length [0] = .ok buffer := by
  rw [Buffer.store_eq_ok_iff, shape, patch_append_left, ← shape]
  refine ⟨?_, by rw [shape]; rfl⟩
  rw [← buffer.length_cells, shape]
  simp

/-! ## Searching -/

theorem getElem?_length_takeWhile (passes : UInt8 → Bool)
    (region : List UInt8) :
    region[(region.takeWhile passes).length]? =
      (region.dropWhile passes)[0]? := by
  have split : region.takeWhile passes ++ region.dropWhile passes =
      region :=
    List.takeWhile_append_dropWhile
  generalize region.takeWhile passes = front at split ⊢
  generalize region.dropWhile passes = rest at split ⊢
  rw [← split, List.getElem?_append_right (Nat.le_refl _), Nat.sub_self]

/-- The search for a byte passes what is in front of it. -/
theorem strchr_found {buffer : Buffer size} {byte : UInt8}
    {front behind : List UInt8}
    (cells : buffer.cells = front ++ byte :: behind)
    (isFirst : byte ∉ front) (free : NulFree front) :
    strchr buffer byte = .ok (some front.length) := by
  have passed : buffer.cells.takeWhile
      (fun cell => cell ≠ byte ∧ cell ≠ 0) = front := by
    rw [cells, List.takeWhile_append_of_pos, List.takeWhile_cons_of_neg,
      List.append_nil]
    · simp
    · intro cell member
      have other : cell ≠ byte := fun isByte => isFirst (isByte ▸ member)
      simpa using ⟨other, free cell member⟩
  have stop : buffer.cells[front.length]? = some byte := by
    rw [cells, List.getElem?_append_right (Nat.le_refl _), Nat.sub_self,
      List.getElem?_cons_zero]
  unfold strchr
  dsimp only
  rw [passed, stop]
  exact congrArg Except.ok (if_pos rfl)

/-- The byte is found where the bytes in front of it are neither it nor a
NUL. -/
theorem strchr_eq_some_iff {buffer : Buffer size} {byte : UInt8}
    {position : Nat} :
    strchr buffer byte = .ok (some position) ↔
      ∃ front behind,
        buffer.cells = front ++ byte :: behind ∧ byte ∉ front ∧
          NulFree front ∧ position = front.length := by
  constructor
  · intro isFound
    let passes : UInt8 → Bool := fun cell => cell ≠ byte ∧ cell ≠ 0
    have passed : ∀ cell, cell ∈ buffer.cells.takeWhile passes →
        cell ≠ byte ∧ cell ≠ 0 := by
      intro cell member
      simpa [passes] using List.mem_takeWhile_imp member
    have stop := getElem?_length_takeWhile passes buffer.cells
    unfold strchr at isFound
    dsimp only at isFound
    rw [stop] at isFound
    cases behind : buffer.cells.dropWhile passes with
    | nil =>
        rw [behind] at isFound
        cases isFound
    | cons cell rest =>
        rw [behind, List.getElem?_cons_zero] at isFound
        dsimp only at isFound
        by_cases isByte : cell = byte
        · rw [if_pos isByte] at isFound
          refine ⟨_, rest, ?_, fun member => (passed byte member).1 rfl,
            fun cell member => (passed cell member).2,
            (Option.some.inj (Except.ok.inj isFound)).symm⟩
          rw [← isByte, ← behind, List.takeWhile_append_dropWhile]
        · rw [if_neg isByte] at isFound
          cases isFound
  · rintro ⟨front, behind, cells, isFirst, free, rfl⟩
    exact strchr_found cells isFirst free

/-- From the first such byte on, the string of the buffer is read. -/
theorem readString_strchr_iff {buffer : Buffer size} {byte : UInt8}
    (nonzero : byte ≠ 0) {found : List UInt8} :
    (∃ position,
        strchr buffer byte = .ok (some position) ∧
          readString buffer position = .ok found) ↔
      0 ∈ buffer.cells ∧
        ∃ front behind,
          cText buffer.cells = front ++ byte :: behind ∧
            byte ∉ front ∧ found = byte :: behind := by
  have textFrom (behind : List UInt8) :
      cText (byte :: behind) = byte :: cText behind := by
    rw [cText, List.takeWhile_cons_of_pos (by simpa using nonzero), cText]
  constructor
  · rintro ⟨position, isFound, isRead⟩
    obtain ⟨front, behind, cells, isFirst, free, rfl⟩ :=
      strchr_eq_some_iff.mp isFound
    obtain ⟨terminated, rfl⟩ := readString_eq_ok_iff.mp isRead
    rw [cells, List.drop_left] at terminated ⊢
    refine ⟨List.mem_append_right front terminated, front, cText behind, ?_,
      isFirst, textFrom behind⟩
    rw [cText_append free, textFrom]
  · rintro ⟨terminated, front, behind, text, isFirst, rfl⟩
    have free : NulFree (front ++ byte :: behind) :=
      text ▸ nulFree_cText buffer.cells
    have frontFree : NulFree front := fun cell member =>
      free cell (List.mem_append_left _ member)
    obtain ⟨rest, cells⟩ := exists_terminated terminated
    rw [text, List.append_assoc, List.cons_append] at cells
    refine ⟨front.length, strchr_found cells isFirst frontFree, ?_⟩
    rw [readString_eq_ok_iff, cells, List.drop_left, ← List.cons_append]
    refine ⟨by simp, (cText_terminated ?_ rest).symm⟩
    exact fun cell member => free cell (List.mem_append_right front member)

theorem strstr_ne_none_iff {text needle : List UInt8} :
    strstr text needle ≠ none ↔ needle <:+: text := by
  rw [strstr, Option.ne_none_iff_isSome, List.find?_isSome]
  simp only [List.mem_range, List.isPrefixOf_iff_prefix]
  constructor
  · rintro ⟨position, _, behind, split⟩
    refine ⟨text.take position, behind, ?_⟩
    rw [List.append_assoc, split, List.take_append_drop]
  · rintro ⟨front, behind, rfl⟩
    refine ⟨front.length, ?_, behind, ?_⟩
    · simp only [List.length_append]
      omega
    · rw [List.append_assoc, List.drop_left]

end Esp32Source.Memory
