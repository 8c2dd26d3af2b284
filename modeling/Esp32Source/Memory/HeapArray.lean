import Esp32Source.Memory.Heap

/-!
# Arrays on a heap

The blocks of the heap are arrays.  An element is read and written at an index
inside its array, and a loop copies the elements from one array to another
one at a time: without a fault, when both arrays are live and long enough, and
with the outcome of one block copy.
-/

namespace Esp32Source.Memory.Heap

universe u v

variable {α : Type u} {β : Type v}

def loadAt (heap : Heap (List α)) (pointer index : Nat) : Except Fault α := do
  let block ← heap.load pointer
  match block[index]? with
  | some value => .ok value
  | none => .error .outOfBounds

def storeAt (heap : Heap (List α)) (pointer index : Nat) (value : α) :
    Except Fault (Heap (List α)) := do
  let block ← heap.load pointer
  if index < block.length then heap.store pointer (block.set index value)
  else .error .outOfBounds

/-- Store values from the front of the array on. -/
def storeFront (heap : Heap (List α)) (pointer : Nat) (values : List α) :
    Except Fault (Heap (List α)) := do
  let block ← heap.load pointer
  if values.length ≤ block.length then
    heap.store pointer (values ++ block.drop values.length)
  else .error .outOfBounds

/-- The first elements of the array. -/
def loadFront (heap : Heap (List α)) (pointer count : Nat) :
    Except Fault (List α) := do
  let block ← heap.load pointer
  if count ≤ block.length then .ok (block.take count)
  else .error .outOfBounds

/-- One turn of the copy loop. -/
def copyAt (source target : Nat) (heap : Heap (List α)) (index : Nat) :
    Except Fault (Heap (List α)) := do
  let value ← heap.loadAt source index
  heap.storeAt target index value

/-- `for (i = 0; i < count; ++i) target[i] = source[i];` -/
def copyArray (heap : Heap (List α)) (source target count : Nat) :
    Except Fault (Heap (List α)) :=
  (List.range count).foldlM (copyAt source target) heap

/-- The heap with another block at an address. -/
def set (heap : Heap β) (address : Nat) (block : Option β) : Heap β :=
  ⟨Function.update heap.block address block⟩

theorem set_self (heap : Heap β) (address : Nat) (block : Option β) :
    (heap.set address block).block address = block := by
  rw [set]
  dsimp only
  rw [Function.update_self]

theorem set_of_ne (heap : Heap β) {address other : Nat}
    (apart : other ≠ address) (block : Option β) :
    (heap.set address block).block other = heap.block other := by
  rw [set]
  dsimp only
  rw [Function.update_of_ne apart]

theorem set_set (heap : Heap β) (address : Nat) (first second : Option β) :
    (heap.set address first).set address second =
      heap.set address second := by
  rw [set, set, set, Function.update_idem]

/-- A block that is allocated and freed again leaves the heap as it was. -/
theorem set_none_of_dead {heap : Heap β} {address : Nat}
    (dead : heap.block address = none) (block : Option β) :
    (heap.set address block).set address none = heap := by
  rw [set_set, set, ← dead, Function.update_eq_self]

theorem free_eq_set {heap : Heap β} {pointer : Nat} {block : β}
    (notNull : pointer ≠ 0) (live : heap.block pointer = some block) :
    heap.free pointer = .ok (heap.set pointer none) :=
  free_of_live notNull live

/-- Two blocks that were allocated, written and freed leave the heap as it
was. -/
theorem set_set_none_of_dead {heap : Heap β} {first second : Nat}
    (firstDead : heap.block first = none)
    (secondDead : heap.block second = none) (block other : Option β) :
    (((heap.set first block).set second other).set first none).set second
      none = heap := by
  apply ext
  intro address
  by_cases isSecond : address = second
  · rw [isSecond, set_self, secondDead]
  · rw [set_of_ne _ isSecond]
    by_cases isFirst : address = first
    · rw [isFirst, set_self, firstDead]
    · rw [set_of_ne _ isFirst, set_of_ne _ isSecond, set_of_ne _ isFirst]

section Live

variable {heap : Heap (List α)} {pointer : Nat} {block : List α}

theorem loadAt_of_live (notNull : pointer ≠ 0)
    (live : heap.block pointer = some block) {index : Nat}
    (inside : index < block.length) :
    heap.loadAt pointer index = .ok block[index] := by
  rw [loadAt, load_of_live notNull live]
  dsimp only [bind, Except.bind]
  rw [List.getElem?_eq_getElem inside]

theorem storeAt_of_live (notNull : pointer ≠ 0)
    (live : heap.block pointer = some block) {index : Nat}
    (inside : index < block.length) (value : α) :
    heap.storeAt pointer index value =
      .ok (heap.set pointer (some (block.set index value))) := by
  rw [storeAt, load_of_live notNull live]
  dsimp only [bind, Except.bind]
  rw [if_pos inside, store_of_live notNull live]
  rfl

theorem storeFront_of_live (notNull : pointer ≠ 0)
    (live : heap.block pointer = some block) {values : List α}
    (fits : values.length ≤ block.length) :
    heap.storeFront pointer values =
      .ok (heap.set pointer
        (some (values ++ block.drop values.length))) := by
  rw [storeFront, load_of_live notNull live]
  dsimp only [bind, Except.bind]
  rw [if_pos fits, store_of_live notNull live]
  rfl

theorem loadFront_of_live (notNull : pointer ≠ 0)
    (live : heap.block pointer = some block) {count : Nat}
    (inside : count ≤ block.length) :
    heap.loadFront pointer count = .ok (block.take count) := by
  rw [loadFront, load_of_live notNull live]
  dsimp only [bind, Except.bind]
  rw [if_pos inside]

end Live

/-- Storing the next element behind those that are copied already. -/
theorem set_copied {source target : List α} {count : Nat}
    (inSource : count < source.length) (inTarget : count < target.length) :
    (source.take count ++ target.drop count).set count source[count] =
      source.take (count + 1) ++ target.drop (count + 1) := by
  have front : (source.take count).length = count :=
    List.length_take_of_le (Nat.le_of_lt inSource)
  rw [List.set_append_right _ _ (Nat.le_of_eq front), front, Nat.sub_self,
    List.drop_eq_getElem_cons inTarget, List.set_cons_zero,
    List.take_succ_eq_append_getElem inSource, List.append_assoc,
    List.singleton_append]

/-- The copy loop, by the number of its turns: what is behind the elements
copied so far is as it was. -/
theorem copyArray_copies {heap : Heap (List α)} {source target count : Nat}
    {wanted old : List α} (sourceNotNull : source ≠ 0)
    (targetNotNull : target ≠ 0) (apart : source ≠ target)
    (sourceLive : heap.block source = some wanted)
    (targetLive : heap.block target = some old)
    (inSource : count ≤ wanted.length) (inTarget : count ≤ old.length) :
    heap.copyArray source target count =
      .ok (heap.set target
        (some (wanted.take count ++ old.drop count))) := by
  induction count with
  | zero =>
      rw [List.take_zero, List.drop_zero, List.nil_append, set, ← targetLive,
        Function.update_eq_self]
      rfl
  | succ count inductionHypothesis =>
      have sofar := inductionHypothesis (Nat.le_of_succ_le inSource)
        (Nat.le_of_succ_le inTarget)
      have reads : (heap.set target
          (some (wanted.take count ++ old.drop count))).loadAt source count =
            .ok wanted[count] :=
        loadAt_of_live sourceNotNull
          ((set_of_ne heap apart _).trans sourceLive) inSource
      have room : count < (wanted.take count ++ old.drop count).length := by
        rw [List.length_append, List.length_take, List.length_drop]
        omega
      rw [copyArray, List.range_succ, List.foldlM_append, ← copyArray, sofar]
      dsimp only [bind, Except.bind]
      rw [List.foldlM_cons, copyAt, reads]
      dsimp only [bind, Except.bind]
      rw [storeAt_of_live targetNotNull (set_self heap target _) room,
        set_set, set_copied inSource inTarget]
      rfl

end Esp32Source.Memory.Heap
