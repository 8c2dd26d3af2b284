import Mathlib.Logic.Function.Basic

/-!
# Tables of the latest items

A table of `size` slots takes the items of a sequence in turn, the `k`-th one
in slot `k % size`.  It then holds the latest `size` items, and the slot that
the next item takes is the one of the item `size` places before it.
-/

namespace Esp32Source.Machine

universe u

variable {α : Type u} {size : Nat}

/-- The slot of the `k`-th item. -/
def slotOf (positive : 0 < size) (k : Nat) : Fin size :=
  ⟨k % size, Nat.mod_lt k positive⟩

/-- The table holds the latest items, and `blank` where no item has come
yet. -/
structure HoldsLatest (positive : 0 < size) (blank : α) (items : List α)
    (table : Fin size → α) : Prop where
  latest : ∀ k item, items[k]? = some item → items.length ≤ k + size →
    table (slotOf positive k) = item
  unused : ∀ slot : Fin size, items.length ≤ slot.val → table slot = blank

namespace HoldsLatest

variable {positive : 0 < size} {blank : α} {items : List α}
  {table : Fin size → α}

theorem nil : HoldsLatest positive blank [] fun _ => blank where
  latest := by
    intro k item isItem
    cases isItem
  unused := fun _ _ => rfl

/-- Two items less than `size` places apart have different slots. -/
theorem slotOf_ne {k later : Nat} (before : k < later)
    (near : later < k + size) :
    slotOf positive k ≠ slotOf positive later := by
  intro same
  have sameRemainder : k % size = later % size :=
    congrArg Fin.val same
  have divides : size ∣ later - k :=
    Nat.dvd_of_mod_eq_zero
      (Nat.sub_mod_eq_zero_of_mod_eq sameRemainder.symm)
  have enough := Nat.le_of_dvd (by omega) divides
  omega

/-- The next item is put over the one `size` places before it. -/
theorem concat (holds : HoldsLatest positive blank items table)
    (item : α) :
    HoldsLatest positive blank (items ++ [item])
      (Function.update table (slotOf positive items.length) item) where
  latest := by
    intro k other isItem near
    rw [List.length_append, List.length_singleton] at near
    rcases Nat.lt_trichotomy k items.length with before | same | behind
    · rw [List.getElem?_append_left before] at isItem
      rw [Function.update_of_ne (slotOf_ne before (by omega))]
      exact holds.latest k other isItem (by omega)
    · rw [same, List.getElem?_concat_length] at isItem
      rw [same, Function.update_self]
      exact Option.some.inj isItem
    · rw [List.getElem?_eq_none (by
        rw [List.length_append, List.length_singleton]
        omega)] at isItem
      cases isItem
  unused := by
    intro slot isUnused
    rw [List.length_append, List.length_singleton] at isUnused
    have other : slot ≠ slotOf positive items.length := by
      rintro rfl
      have atMost : items.length % size ≤ items.length :=
        Nat.mod_le items.length size
      have isLess : items.length + 1 ≤ items.length % size := isUnused
      omega
    rw [Function.update_of_ne other]
    exact holds.unused slot (Nat.le_of_succ_le isUnused)

/-- As long as there are few items, the next slot is blank. -/
theorem next_of_few (holds : HoldsLatest positive blank items table)
    (few : items.length < size) :
    table (slotOf positive items.length) = blank := by
  apply holds.unused
  exact Nat.le_of_eq (Nat.mod_eq_of_lt few).symm

/-- Then it holds the item `size` places before the next one. -/
theorem next_of_many (holds : HoldsLatest positive blank items table)
    (many : size ≤ items.length) :
    items[items.length - size]? =
      some (table (slotOf positive items.length)) := by
  have inRange : items.length - size < items.length := by omega
  have isItem := List.getElem?_eq_getElem inRange
  have sameSlot : slotOf positive (items.length - size) =
      slotOf positive items.length :=
    Fin.ext (Nat.mod_eq_sub_mod many).symm
  rw [isItem, ← sameSlot]
  exact congrArg some (holds.latest _ _ isItem (by omega)).symm

end HoldsLatest

end Esp32Source.Machine
