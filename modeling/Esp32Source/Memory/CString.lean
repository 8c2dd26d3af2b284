import Esp32Source.Memory.Region
import Mathlib.Data.List.TakeWhile

/-!
# Byte buffers and C strings

`Buffer size` is a byte array of a fixed size.  Every store is checked: one
that does not fit returns `Fault.outOfBounds`, so that a run of a C program
either stays inside its arrays or ends in a fault.

The string functions follow the C library.  A string is read up to its first
NUL; `cText` is that reading of a region, or the whole region where it holds
no NUL.
-/

namespace Esp32Source.Memory

/-- Where a C program leaves its defined behaviour. -/
inductive Fault where
  /-- A null pointer was dereferenced. -/
  | nullPointer
  /-- A pointer to no live block was dereferenced or freed. -/
  | deadBlock
  /-- An array was accessed outside its bounds. -/
  | outOfBounds
  /-- A block was accessed as one of another type. -/
  | wrongBlock
  /-- A conversion specification had no argument to convert. -/
  | missingArgument
  deriving DecidableEq, Repr

/-- The bytes of a source literal. -/
def ascii (text : String) : List UInt8 :=
  text.toList.map fun character => UInt8.ofNat character.toNat

/-! ## Text of a region -/

/-- The bytes of a string: no byte is the terminator. -/
def NulFree (text : List UInt8) : Prop :=
  ∀ byte, byte ∈ text → byte ≠ 0

instance (text : List UInt8) : Decidable (NulFree text) :=
  List.decidableBAll (· ≠ 0) text

/-- A region read up to its first NUL, or up to its end. -/
def cText (region : List UInt8) : List UInt8 :=
  region.takeWhile (· ≠ 0)

@[simp]
theorem nulFree_nil : NulFree [] := by
  simp [NulFree]

theorem NulFree.append {left right : List UInt8}
    (leftFree : NulFree left) (rightFree : NulFree right) :
    NulFree (left ++ right) := by
  intro byte member
  rcases List.mem_append.mp member with inLeft | inRight
  · exact leftFree byte inLeft
  · exact rightFree byte inRight

theorem cText_append {text : List UInt8} (free : NulFree text)
    (rest : List UInt8) :
    cText (text ++ rest) = text ++ cText rest := by
  unfold cText
  rw [List.takeWhile_append_of_pos]
  intro byte member
  simpa using free byte member

@[simp]
theorem cText_cons_zero (rest : List UInt8) : cText (0 :: rest) = [] := by
  simp [cText]

theorem cText_of_nulFree {text : List UInt8} (free : NulFree text) :
    cText text = text := by
  simpa [cText] using cText_append free []

/-- A string is read back from the bytes in front of its terminator. -/
theorem cText_terminated {text : List UInt8} (free : NulFree text)
    (rest : List UInt8) :
    cText (text ++ 0 :: rest) = text := by
  rw [cText_append free, cText_cons_zero, List.append_nil]

/-- A field that the string and its terminator are copied into reads as the
string, also where the terminator no longer fits. -/
theorem cText_take_terminated {text : List UInt8} (free : NulFree text)
    (rest : List UInt8) {count : Nat} (fits : text.length ≤ count) :
    cText ((text ++ 0 :: rest).take count) = text := by
  rw [List.take_append, List.take_of_length_le fits]
  cases count - text.length with
  | zero =>
      rw [List.take_zero, List.append_nil, cText_of_nulFree free]
  | succ room =>
      rw [List.take_succ_cons, cText_terminated free]

theorem nulFree_cText (region : List UInt8) : NulFree (cText region) := by
  intro byte member
  simpa using List.mem_takeWhile_imp member

/-- The text ends inside the region exactly when there is a NUL in it. -/
theorem length_cText_lt_iff (region : List UInt8) :
    (cText region).length < region.length ↔ 0 ∈ region := by
  induction region with
  | nil =>
      simp [cText]
  | cons byte region inductionHypothesis =>
      by_cases isNul : byte = 0
      · rw [isNul, cText_cons_zero]
        simp
      · have shape : cText (byte :: region) = byte :: cText region := by
          rw [cText, List.takeWhile_cons_of_pos (by simpa using isNul),
            cText]
        rw [shape, List.length_cons, List.length_cons,
          Nat.add_lt_add_iff_right, inductionHypothesis, List.mem_cons,
          or_iff_right (Ne.symm isNul)]

/-- A region with a NUL behind it is its text, a NUL, and something else. -/
theorem terminated_eq_cText (region behind : List UInt8) :
    ∃ rest, region ++ 0 :: behind = cText region ++ 0 :: rest := by
  induction region with
  | nil =>
      exact ⟨behind, rfl⟩
  | cons byte region inductionHypothesis =>
      by_cases isNul : byte = 0
      · refine ⟨region ++ 0 :: behind, ?_⟩
        rw [isNul, cText_cons_zero]
        rfl
      · obtain ⟨rest, split⟩ := inductionHypothesis
        refine ⟨rest, ?_⟩
        have shape : cText (byte :: region) = byte :: cText region := by
          rw [cText, List.takeWhile_cons_of_pos (by simpa using isNul),
            cText]
        rw [shape, List.cons_append, List.cons_append, split]

/-- The region is `text` followed by zeros only. -/
def ZeroPadded (text region : List UInt8) : Prop :=
  region = text ++ List.replicate (region.length - text.length) 0

theorem zeroPadded_replicate (size : Nat) :
    ZeroPadded [] (List.replicate size 0) := by
  simp [ZeroPadded]

theorem ZeroPadded.length_le {text region : List UInt8}
    (padded : ZeroPadded text region) : text.length ≤ region.length := by
  rw [padded]
  simp

theorem ZeroPadded.cText_eq {text region : List UInt8}
    (padded : ZeroPadded text region) (free : NulFree text) :
    cText region = text := by
  rw [padded, cText_append free]
  cases region.length - text.length with
  | zero =>
      simp [cText]
  | succ count =>
      rw [List.replicate_succ, cText_cons_zero, List.append_nil]

/-- Copying bytes over the beginning of a zero-padded region copies them over
the beginning of its text. -/
theorem ZeroPadded.overlay {text region : List UInt8}
    (padded : ZeroPadded text region) {source : List UInt8}
    (fits : source.length ≤ region.length) :
    ZeroPadded (overlay source text) (overlay source region) := by
  have textFits := padded.length_le
  have size : (Memory.overlay source region).length = region.length := by
    rw [length_overlay]
    omega
  unfold ZeroPadded
  rw [size, length_overlay]
  conv_lhs => rw [padded]
  unfold Memory.overlay
  rw [List.drop_append, List.drop_replicate, List.append_assoc]
  congr 3
  omega

/-! ## Buffers -/

/-- A byte array of a fixed size. -/
structure Buffer (size : Nat) where
  cells : List UInt8
  length_cells : cells.length = size
  deriving DecidableEq, Repr

namespace Buffer

variable {size : Nat}

@[ext]
theorem ext {left right : Buffer size}
    (sameCells : left.cells = right.cells) : left = right := by
  cases left
  cases right
  cases sameCells
  rfl

/-- A buffer of zeros. -/
def zero (size : Nat) : Buffer size :=
  ⟨List.replicate size 0, List.length_replicate⟩

@[simp]
theorem cells_zero (size : Nat) :
    (zero size).cells = List.replicate size 0 :=
  rfl

/-- Copy `source` to the bytes that start at `position`. -/
def store (buffer : Buffer size) (position : Nat) (source : List UInt8) :
    Except Fault (Buffer size) :=
  if fits : position + source.length ≤ size then
    .ok ⟨patch position source buffer.cells, by
      rw [length_patch (by rw [buffer.length_cells]; exact fits),
        buffer.length_cells]⟩
  else
    .error .outOfBounds

/-- Copy a source that is no longer than the buffer to its beginning. -/
def storeFront (buffer : Buffer size) (source : List UInt8)
    (fits : source.length ≤ size) : Buffer size :=
  ⟨overlay source buffer.cells, by
    rw [length_overlay, buffer.length_cells]
    exact Nat.max_eq_right fits⟩

/-- The `length` bytes that start at `position`. -/
def window (buffer : Buffer size) (position length : Nat) : List UInt8 :=
  Memory.window position length buffer.cells

/-- Read the `length` bytes that start at `position`. -/
def load (buffer : Buffer size) (position length : Nat) :
    Except Fault (List UInt8) :=
  if position + length ≤ size then .ok (buffer.window position length)
  else .error .outOfBounds

theorem store_eq_ok_iff
    {buffer stored : Buffer size} {position : Nat} {source : List UInt8} :
    buffer.store position source = .ok stored ↔
      position + source.length ≤ size ∧
        stored.cells = patch position source buffer.cells := by
  unfold store
  by_cases fits : position + source.length ≤ size
  · rw [dif_pos fits]
    constructor
    · intro equality
      cases equality
      exact ⟨fits, rfl⟩
    · rintro ⟨_, cells⟩
      exact congrArg Except.ok (Buffer.ext cells.symm)
  · rw [dif_neg fits]
    constructor
    · intro equality
      cases equality
    · rintro ⟨fitsToo, _⟩
      exact absurd fitsToo fits

/-- A store that fits succeeds. -/
theorem store_of_fits (buffer : Buffer size) (position : Nat)
    (source : List UInt8) (fits : position + source.length ≤ size) :
    ∃ stored, buffer.store position source = .ok stored ∧
      stored.cells = patch position source buffer.cells := by
  unfold store
  rw [dif_pos fits]
  exact ⟨_, rfl, rfl⟩

theorem length_window (buffer : Buffer size) {position length : Nat}
    (fits : position + length ≤ size) :
    (buffer.window position length).length = length :=
  Memory.length_window (by rw [buffer.length_cells]; exact fits)

theorem load_of_fits (buffer : Buffer size) (position length : Nat)
    (fits : position + length ≤ size) :
    buffer.load position length = .ok (buffer.window position length) :=
  if_pos fits

/-- Reading the stored bytes returns them. -/
theorem window_store_self
    {buffer stored : Buffer size} {position : Nat} {source : List UInt8}
    (success : buffer.store position source = .ok stored) :
    stored.window position source.length = source := by
  obtain ⟨fits, cells⟩ := store_eq_ok_iff.mp success
  unfold window
  rw [cells, window_patch_self (by rw [buffer.length_cells]; exact fits)]

theorem window_storeFront (buffer : Buffer size) (source : List UInt8)
    (fits : source.length ≤ size) :
    (buffer.storeFront source fits).window 0 source.length = source := by
  have cells :
      (buffer.storeFront source fits).cells = overlay source buffer.cells :=
    rfl
  rw [window, Memory.window, List.drop_zero, cells, overlay,
    List.take_left]

/-- A store keeps every window before or behind the stored bytes. -/
theorem window_store_disjoint
    {buffer stored : Buffer size} {position : Nat} {source : List UInt8}
    (success : buffer.store position source = .ok stored)
    {start length : Nat}
    (disjoint :
      start + length ≤ position ∨ position + source.length ≤ start) :
    stored.window start length = buffer.window start length := by
  obtain ⟨fits, cells⟩ := store_eq_ok_iff.mp success
  unfold window
  rw [cells,
    window_patch_disjoint (by rw [buffer.length_cells]; exact fits) disjoint]

/-- A store inside a window patches the window. -/
theorem window_store_inside
    {buffer stored : Buffer size} {position : Nat} {source : List UInt8}
    (success : buffer.store position source = .ok stored)
    {start length : Nat} (fits : start + length ≤ size)
    (inside : start ≤ position)
    (ends : position + source.length ≤ start + length) :
    stored.window start length =
      patch (position - start) source (buffer.window start length) := by
  obtain ⟨_, cells⟩ := store_eq_ok_iff.mp success
  unfold window
  rw [cells,
    window_patch_inside (by rw [buffer.length_cells]; exact fits) inside ends]

/-- Storing two sources one behind the other is storing them at once. -/
theorem store_append_eq_ok_iff
    {buffer stored : Buffer size} {position : Nat}
    {first second : List UInt8} :
    buffer.store position (first ++ second) = .ok stored ↔
      ∃ middle,
        buffer.store position first = .ok middle ∧
          middle.store (position + first.length) second = .ok stored := by
  have adjacent
      (fits : position + first.length + second.length ≤ size) :
      patch (position + first.length) second
          (patch position first buffer.cells) =
        patch position (first ++ second) buffer.cells := by
    apply patch_patch_adjacent
    rw [buffer.length_cells]
    exact fits
  constructor
  · intro storesBoth
    obtain ⟨fits, cells⟩ := store_eq_ok_iff.mp storesBoth
    rw [List.length_append, ← Nat.add_assoc] at fits
    obtain ⟨middle, storesFirst, middleCells⟩ :=
      buffer.store_of_fits position first (by omega)
    refine ⟨middle, storesFirst, store_eq_ok_iff.mpr ⟨fits, ?_⟩⟩
    rw [middleCells, adjacent fits, cells]
  · rintro ⟨middle, storesFirst, storesSecond⟩
    obtain ⟨_, middleCells⟩ := store_eq_ok_iff.mp storesFirst
    obtain ⟨fits, cells⟩ := store_eq_ok_iff.mp storesSecond
    refine store_eq_ok_iff.mpr ⟨?_, ?_⟩
    · rw [List.length_append, ← Nat.add_assoc]
      exact fits
    · rw [cells, middleCells, adjacent fits]

/-- A text is stored with its terminator where it leaves a byte of the
buffer. -/
theorem store_terminated_eq_ok_iff {buffer stored : Buffer size}
    {text : List UInt8} :
    buffer.store 0 (text ++ [0]) = .ok stored ↔
      text.length < size ∧
        stored.cells = text ++ 0 :: buffer.cells.drop (text.length + 1) := by
  rw [store_eq_ok_iff, patch_zero, overlay, List.length_append,
    List.length_singleton, List.append_assoc, List.singleton_append,
    Nat.zero_add, Nat.add_one_le_iff]

theorem store_terminated (buffer : Buffer size) {text : List UInt8}
    (short : text.length < size) :
    ∃ stored,
      buffer.store 0 (text ++ [0]) = .ok stored ∧
        stored.cells =
          text ++ 0 :: buffer.cells.drop (text.length + 1) := by
  obtain ⟨stored, isStored, _⟩ :=
    buffer.store_of_fits 0 (text ++ [0]) (by
      rw [List.length_append, List.length_singleton]
      omega)
  exact ⟨stored, isStored, (store_terminated_eq_ok_iff.mp isStored).2⟩

/-- A text that leaves a byte of the buffer can be stored and terminated. -/
theorem terminate_of_fits (buffer : Buffer size) (text : List UInt8)
    (short : text.length < size) :
    ∃ stored terminated,
      buffer.store 0 text = .ok stored ∧
        stored.store text.length [0] = .ok terminated ∧
        terminated.cells =
          text ++ 0 :: buffer.cells.drop (text.length + 1) := by
  obtain ⟨terminated, together, cells⟩ := buffer.store_terminated short
  obtain ⟨stored, first, second⟩ := store_append_eq_ok_iff.mp together
  rw [Nat.zero_add] at second
  exact ⟨stored, terminated, first, second, cells⟩

end Buffer

/-! ## String functions -/

/-- `strlen`: the bytes in front of the terminator of the string that starts
at `position`. -/
def strlen {size : Nat} (buffer : Buffer size) (position : Nat) :
    Except Fault Nat :=
  let tail := buffer.cells.drop position
  let length := (cText tail).length
  if length < tail.length then .ok length else .error .outOfBounds

/-- The search ends inside the buffer exactly when a NUL is found. -/
theorem strlen_eq_ok_iff {size : Nat} {buffer : Buffer size}
    {position length : Nat} :
    strlen buffer position = .ok length ↔
      0 ∈ buffer.cells.drop position ∧
        length = (cText (buffer.cells.drop position)).length := by
  rw [← length_cText_lt_iff, strlen]
  split
  · rename_i isInside
    rw [and_iff_right isInside]
    exact ⟨fun isOk => (Except.ok.inj isOk).symm,
      fun isLength => congrArg Except.ok isLength.symm⟩
  · rename_i isOutside
    refine iff_of_false ?_ (fun found => isOutside found.1)
    intro isOk
    cases isOk

theorem strlen_of_terminated {size : Nat} {buffer : Buffer size}
    {position : Nat} {text rest : List UInt8}
    (shape : buffer.cells.drop position = text ++ 0 :: rest)
    (free : NulFree text) :
    strlen buffer position = .ok text.length := by
  simp only [strlen, shape, cText_terminated free]
  exact if_pos (by simp)

theorem strlen_of_zeroPadded {size : Nat} {buffer : Buffer size}
    {text : List UInt8} (padded : ZeroPadded text buffer.cells)
    (free : NulFree text) (shorter : text.length < size) :
    strlen buffer 0 = .ok text.length := by
  have whole : cText (buffer.cells.drop 0) = text := by
    rw [List.drop_zero, padded.cText_eq free]
  simp only [strlen, whole, List.length_drop, buffer.length_cells]
  exact if_pos (by omega)

/-- The bytes that `strncpy` stores for a count: at most `count` bytes of the
source string, then zeros up to the count. -/
def strncpyBytes (source : List UInt8) (count : Nat) : List UInt8 :=
  let copied := (cText source).take count
  copied ++ List.replicate (count - copied.length) 0

/-- A source without NUL is copied as it is. -/
theorem strncpyBytes_of_nulFree {source : List UInt8}
    (free : NulFree source) :
    strncpyBytes source source.length = source := by
  simp [strncpyBytes, cText_of_nulFree free]

end Esp32Source.Memory
