import Esp32Source.Memory.CString
import Mathlib.Algebra.Group.Nat.Defs
import Mathlib.Logic.Function.Basic

/-!
# Heaps

A heap holds blocks at addresses.  `malloc` is given the address that it is to
return; an answer that no allocator can give (the null address, one beyond 32
bits, one that is still in use) is taken as a failed allocation.

A block may be read, written and freed while it is live only.  A run without
a fault therefore frees no block twice and uses none after it was freed.
-/

namespace Esp32Source.Memory

universe u

structure Heap (Block : Type u) where
  block : Nat → Option Block

namespace Heap

variable {Block : Type u}

def empty : Heap Block where
  block _ := none

/-- The heap and the address returned, which is zero if the allocation
fails. -/
def malloc (heap : Heap Block) (answer : Option Nat) (fresh : Block) :
    Heap Block × Nat :=
  match answer with
  | some address =>
      if address ≠ 0 ∧ address < 256 ^ 4 ∧ (heap.block address).isNone then
        (⟨Function.update heap.block address (some fresh)⟩, address)
      else (heap, 0)
  | none => (heap, 0)

def load (heap : Heap Block) (pointer : Nat) : Except Fault Block :=
  if pointer = 0 then .error .nullPointer
  else
    match heap.block pointer with
    | some block => .ok block
    | none => .error .deadBlock

def store (heap : Heap Block) (pointer : Nat) (block : Block) :
    Except Fault (Heap Block) := do
  let _ ← heap.load pointer
  return ⟨Function.update heap.block pointer (some block)⟩

/-- `free` of the null pointer does nothing. -/
def free (heap : Heap Block) (pointer : Nat) :
    Except Fault (Heap Block) :=
  if pointer = 0 then .ok heap
  else do
    let _ ← heap.load pointer
    return ⟨Function.update heap.block pointer none⟩

@[ext]
theorem ext {left right : Heap Block}
    (same : ∀ address, left.block address = right.block address) :
    left = right := by
  cases left
  cases right
  congr
  funext address
  exact same address

/-- An allocation fails, or returns a fresh address with the block. -/
theorem malloc_cases (heap : Heap Block) (answer : Option Nat)
    (fresh : Block) :
    heap.malloc answer fresh = (heap, 0) ∨
      ∃ address,
        address ≠ 0 ∧ address < 256 ^ 4 ∧ heap.block address = none ∧
          heap.malloc answer fresh =
            (⟨Function.update heap.block address (some fresh)⟩,
              address) := by
  cases answer with
  | none =>
      exact Or.inl rfl
  | some address =>
      by_cases possible :
          address ≠ 0 ∧ address < 256 ^ 4 ∧ (heap.block address).isNone
      · refine Or.inr ⟨address, possible.1, possible.2.1, ?_, ?_⟩
        · exact Option.isNone_iff_eq_none.mp possible.2.2
        · exact if_pos possible
      · exact Or.inl (if_neg possible)

theorem load_of_live {heap : Heap Block} {pointer : Nat} {block : Block}
    (notNull : pointer ≠ 0) (live : heap.block pointer = some block) :
    heap.load pointer = .ok block := by
  rw [load, if_neg notNull, live]

theorem load_eq_ok_iff {heap : Heap Block} {pointer : Nat} {block : Block} :
    heap.load pointer = .ok block ↔
      pointer ≠ 0 ∧ heap.block pointer = some block := by
  constructor
  · intro loaded
    rw [load] at loaded
    by_cases null : pointer = 0
    · rw [if_pos null] at loaded
      cases loaded
    · rw [if_neg null] at loaded
      cases live : heap.block pointer with
      | none =>
          rw [live] at loaded
          cases loaded
      | some other =>
          rw [live] at loaded
          cases loaded
          exact ⟨null, rfl⟩
  · intro parts
    exact load_of_live parts.1 parts.2

/-- A block that is live after a `free` was live before. -/
theorem load_of_free {heap freed : Heap Block} {pointer address : Nat}
    {block : Block} (isFreed : heap.free pointer = .ok freed)
    (loaded : freed.load address = .ok block) :
    heap.load address = .ok block := by
  rw [free] at isFreed
  by_cases null : pointer = 0
  · rw [if_pos null] at isFreed
    cases isFreed
    exact loaded
  · rw [if_neg null] at isFreed
    cases live : heap.load pointer with
    | error fault =>
        rw [live] at isFreed
        cases isFreed
    | ok old =>
        rw [live] at isFreed
        cases isFreed
        obtain ⟨notNull, isLive⟩ := load_eq_ok_iff.mp loaded
        dsimp only at isLive
        have elsewhere : address ≠ pointer := by
          intro same
          rw [same, Function.update_self] at isLive
          cases isLive
        rw [Function.update_of_ne elsewhere] at isLive
        exact load_of_live notNull isLive

/-- A block that is live stays so when another is allocated. -/
theorem load_malloc {heap : Heap Block} {address : Nat} {block : Block}
    (loaded : heap.load address = .ok block) (answer : Option Nat)
    (fresh : Block) :
    (heap.malloc answer fresh).1.load address = .ok block := by
  obtain ⟨notNull, live⟩ := load_eq_ok_iff.mp loaded
  rcases heap.malloc_cases answer fresh with
    failed | ⟨new, _, _, free, succeeded⟩
  · rw [failed]
    exact loaded
  · rw [succeeded]
    have elsewhere : address ≠ new := by
      intro same
      rw [same, free] at live
      cases live
    exact load_of_live notNull
      ((Function.update_of_ne elsewhere _ _).trans live)

/-- What is live after a `store` is the stored block, or was live before. -/
theorem load_of_store {heap stored : Heap Block} {pointer address : Nat}
    {new block : Block} (isStored : heap.store pointer new = .ok stored)
    (loaded : stored.load address = .ok block) :
    block = new ∨ heap.load address = .ok block := by
  rw [store] at isStored
  cases live : heap.load pointer with
  | error fault =>
      rw [live] at isStored
      cases isStored
  | ok old =>
      rw [live] at isStored
      cases isStored
      obtain ⟨notNull, isLive⟩ := load_eq_ok_iff.mp loaded
      dsimp only at isLive
      by_cases same : address = pointer
      · rw [same, Function.update_self] at isLive
        exact Or.inl (Option.some_inj.mp isLive).symm
      · rw [Function.update_of_ne same] at isLive
        exact Or.inr (load_of_live notNull isLive)

theorem load_empty (pointer : Nat) (block : Block) :
    (empty : Heap Block).load pointer ≠ .ok block := by
  intro loaded
  have live := (load_eq_ok_iff.mp loaded).2
  cases live

theorem store_of_live {heap : Heap Block} {pointer : Nat} {old : Block}
    (notNull : pointer ≠ 0) (live : heap.block pointer = some old)
    (block : Block) :
    heap.store pointer block =
      .ok ⟨Function.update heap.block pointer (some block)⟩ := by
  rw [store, load_of_live notNull live]
  rfl

theorem free_of_live {heap : Heap Block} {pointer : Nat} {block : Block}
    (notNull : pointer ≠ 0) (live : heap.block pointer = some block) :
    heap.free pointer =
      .ok ⟨Function.update heap.block pointer none⟩ := by
  rw [free, if_neg notNull, load_of_live notNull live]
  rfl

end Heap

end Esp32Source.Memory
