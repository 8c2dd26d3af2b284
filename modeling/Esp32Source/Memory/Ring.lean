import Mathlib.Data.List.Basic

/-!
# Rings of cells

A ring keeps a queue in an array of cells.  The oldest element stands at
`outPos`, the next free cell is at `inPos`, and both positions wrap around at
the end of the array.  One cell always stays free, so that equal positions
mean an empty queue and not a full one.

`RingHolds` relates the array and its positions to the queue.  Its lemmas are
what a program that works on the positions needs: when the ring is empty, when
it is full, how many elements it has, and what storing and removing one
element do to the queue.
-/

namespace Esp32Source.Memory

universe u

variable {α : Type u}

/-- The array and its positions hold the queue. -/
structure RingHolds (cells : List α) (outPos inPos : Nat)
    (queue : List α) : Prop where
  outBelow : outPos < cells.length
  inAt : inPos = (outPos + queue.length) % cells.length
  room : queue.length < cells.length
  cellAt : ∀ offset, offset < queue.length →
    cells[(outPos + offset) % cells.length]? = queue[offset]?

/-- A position wraps around at most once. -/
theorem wrap_eq {position size : Nat} (once : position < 2 * size) :
    position % size =
      if position < size then position else position - size := by
  by_cases inside : position < size
  · rw [if_pos inside, Nat.mod_eq_of_lt inside]
  · have wraps : size ≤ position := Nat.le_of_not_lt inside
    rw [if_neg inside, Nat.mod_eq_sub_mod wraps]
    apply Nat.mod_eq_of_lt
    omega

/-- Different offsets from one position are different cells. -/
theorem wrap_ne {start first second size : Nat} (below : start < size)
    (less : first < second) (lessSize : second < size) :
    (start + first) % size ≠ (start + second) % size := by
  rw [wrap_eq (by omega), wrap_eq (by omega)]
  split <;> split <;> omega

/-- The position behind a wrapped position. -/
theorem wrap_succ {position size : Nat} :
    (position % size + 1) % size = (position + 1) % size :=
  Nat.mod_add_mod position size 1

namespace RingHolds

variable {cells : List α} {outPos inPos : Nat} {queue : List α}

theorem empty {start : Nat} (below : start < cells.length) :
    RingHolds cells start start [] where
  outBelow := below
  inAt := (Nat.mod_eq_of_lt below).symm
  room := Nat.lt_of_le_of_lt (Nat.zero_le _) below
  cellAt := nofun

theorem inBelow (holds : RingHolds cells outPos inPos queue) :
    inPos < cells.length := by
  rw [holds.inAt]
  apply Nat.mod_lt
  exact Nat.zero_lt_of_lt holds.outBelow

/-- Equal positions mean an empty queue. -/
theorem eq_iff (holds : RingHolds cells outPos inPos queue) :
    inPos = outPos ↔ queue = [] := by
  have outBelow := holds.outBelow
  have room := holds.room
  rw [holds.inAt, wrap_eq (by omega), ← List.length_eq_zero_iff]
  split <;> omega

/-- The next position is the oldest element's exactly when one cell is
free. -/
theorem next_eq_iff (holds : RingHolds cells outPos inPos queue) :
    (inPos + 1) % cells.length = outPos ↔
      queue.length = cells.length - 1 := by
  have outBelow := holds.outBelow
  have room := holds.room
  rw [holds.inAt, wrap_succ, wrap_eq (by omega)]
  split <;> omega

/-- The number of elements is the distance of the positions. -/
theorem length_eq (holds : RingHolds cells outPos inPos queue) :
    queue.length =
      if inPos < outPos then inPos + cells.length - outPos
      else inPos - outPos := by
  have outBelow := holds.outBelow
  have room := holds.room
  have inAt := holds.inAt
  rw [wrap_eq (by omega)] at inAt
  split at inAt
  · rw [if_neg (by omega)]
    omega
  · rw [if_pos (by omega)]
    omega

/-- The oldest element stands at `outPos`. -/
theorem head (holds : RingHolds cells outPos inPos queue) {element : α}
    {rest : List α} (shape : queue = element :: rest) :
    cells[outPos]? = some element := by
  have first := holds.cellAt 0 (by
    rw [shape]
    exact Nat.zero_lt_succ _)
  rw [Nat.add_zero, Nat.mod_eq_of_lt holds.outBelow, shape] at first
  exact first

/-- Storing an element in the free cell appends it to the queue. -/
theorem push (holds : RingHolds cells outPos inPos queue) (element : α)
    (notFull : (inPos + 1) % cells.length ≠ outPos) :
    RingHolds (cells.set inPos element) outPos
      ((inPos + 1) % cells.length) (queue ++ [element]) := by
  have outBelow := holds.outBelow
  have inBelow := holds.inBelow
  have free : queue.length + 1 < cells.length := by
    have room := holds.room
    have notLast := mt holds.next_eq_iff.mpr notFull
    omega
  refine ⟨?_, ?_, ?_, ?_⟩
  · rw [List.length_set]
    exact outBelow
  · rw [List.length_set, List.length_append, List.length_singleton,
      holds.inAt, wrap_succ, Nat.add_assoc]
  · rw [List.length_set, List.length_append, List.length_singleton]
    exact free
  · intro offset isOffset
    rw [List.length_append, List.length_singleton] at isOffset
    rw [List.length_set]
    by_cases isNew : offset = queue.length
    · rw [isNew, ← holds.inAt, List.getElem?_set_self inBelow,
        List.getElem?_append_right (Nat.le_refl _), Nat.sub_self]
      rfl
    · have isOld : offset < queue.length := by omega
      have elsewhere : inPos ≠ (outPos + offset) % cells.length := by
        rw [holds.inAt]
        exact (wrap_ne outBelow isOld holds.room).symm
      rw [List.getElem?_set_ne elsewhere, holds.cellAt offset isOld,
        List.getElem?_append_left isOld]

/-- Moving `outPos` on removes the oldest element. -/
theorem pop {element : α} {rest : List α}
    (holds : RingHolds cells outPos inPos (element :: rest)) :
    RingHolds cells ((outPos + 1) % cells.length) inPos rest := by
  have outBelow := holds.outBelow
  have room := holds.room
  rw [List.length_cons] at room
  have moved : ∀ offset,
      ((outPos + 1) % cells.length + offset) % cells.length =
        (outPos + (offset + 1)) % cells.length := by
    intro offset
    rw [Nat.mod_add_mod, Nat.add_assoc, Nat.add_comm 1 offset]
  refine ⟨?_, ?_, ?_, ?_⟩
  · apply Nat.mod_lt
    omega
  · rw [moved, holds.inAt, List.length_cons]
  · omega
  · intro offset isOffset
    rw [moved, holds.cellAt (offset + 1) (by
      rw [List.length_cons]
      omega), List.getElem?_cons_succ]

end RingHolds

end Esp32Source.Memory
