import Esp32Source.Memory.Heap
import Mathlib.Data.Finset.Card

/-!
# The live blocks of a heap

A block that is never freed stays live.  Every allocation that succeeds adds
the address it returns to those of the live blocks, so that a program that
frees nothing has as many live blocks as it made allocations, and cannot make
more of them than the allocator has addresses.
-/

namespace Esp32Source.Memory.Heap

universe u

variable {Block : Type u}

/-- The addresses of the live blocks. -/
def LiveAt (heap : Heap Block) (live : Finset Nat) : Prop :=
  ∀ address, address ∈ live ↔ heap.block address ≠ none

theorem liveAt_empty : LiveAt (empty : Heap Block) ∅ := by
  intro address
  rw [empty]
  simp

/-- An allocation that succeeds returns what it was given. -/
theorem answer_of_malloc {heap : Heap Block} {answer : Option Nat}
    {fresh : Block} (succeeds : (heap.malloc answer fresh).2 ≠ 0) :
    answer = some (heap.malloc answer fresh).2 := by
  cases answer with
  | none =>
      exact absurd rfl succeeds
  | some address =>
      rw [malloc] at succeeds ⊢
      split at succeeds
      · rw [if_pos ‹_›]
      · exact absurd rfl succeeds

/-- An allocation that succeeds adds one live block. -/
theorem LiveAt.malloc {heap : Heap Block} {live : Finset Nat}
    {answer : Option Nat} {fresh : Block} (isLive : heap.LiveAt live)
    (succeeds : (heap.malloc answer fresh).2 ≠ 0) :
    (heap.malloc answer fresh).2 ∉ live ∧
      (heap.malloc answer fresh).1.LiveAt
        (insert (heap.malloc answer fresh).2 live) := by
  rcases heap.malloc_cases answer fresh with
    failed | ⟨address, _, _, isFree, allocated⟩
  · rw [failed] at succeeds
    exact absurd rfl succeeds
  · rw [allocated]
    constructor
    · rw [isLive address]
      exact fun notFree => notFree isFree
    · intro other
      rw [Finset.mem_insert, isLive other]
      dsimp only
      by_cases same : other = address
      · rw [same, Function.update_self]
        simp
      · rw [Function.update_of_ne same]
        exact or_iff_right same

end Esp32Source.Memory.Heap
