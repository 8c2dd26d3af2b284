import Mathlib.Data.List.Induction

/-!
# Regions of memory as lists

A region is the list of its cells.  `patch` copies a source over the cells
that start at a position, `window` reads a run of cells, and `overlay` is the
patch at the beginning of the region.

Copying over the beginning keeps whatever the region held behind the copied
cells.  The last section follows a whole history of such copies: the region
holds exactly the last source if and only if no earlier source was longer.
-/

namespace Esp32Source.Memory

universe u

variable {α : Type u}

/-! ## Patches and windows -/

/-- Copy `source` over the cells of `target` that start at `position`. -/
def patch (position : Nat) (source target : List α) : List α :=
  target.take position ++ source ++ target.drop (position + source.length)

/-- The `length` cells of `region` that start at `position`. -/
def window (position length : Nat) (region : List α) : List α :=
  (region.drop position).take length

@[simp]
theorem patch_nil (position : Nat) (target : List α) :
    patch position [] target = target := by
  simp [patch]

/-- Patching behind a front part patches the rest at its beginning. -/
theorem patch_append_left (front source rest : List α) :
    patch front.length source (front ++ rest) =
      front ++ (source ++ rest.drop source.length) := by
  rw [patch, List.take_left, List.drop_append, List.append_assoc]
  simp

/-- Patching behind a front part leaves it. -/
theorem patch_append_of_le {position : Nat} {front : List α}
    (behind : front.length ≤ position) (source rest : List α) :
    patch position source (front ++ rest) =
      front ++ patch (position - front.length) source rest := by
  have further : position + source.length - front.length =
      position - front.length + source.length := by
    omega
  rw [patch, patch, List.take_append, List.take_of_length_le behind,
    List.drop_append, List.drop_of_length_le (by omega), further,
    List.nil_append, List.append_assoc, List.append_assoc,
    List.append_assoc]

theorem patch_succ_cons (position : Nat) (source : List α) (cell : α)
    (rest : List α) :
    patch (position + 1) source (cell :: rest) =
      cell :: patch position source rest := by
  rw [patch, patch, List.take_succ_cons, Nat.add_right_comm,
    List.drop_succ_cons]
  rfl

theorem length_patch {position : Nat} {source target : List α}
    (fits : position + source.length ≤ target.length) :
    (patch position source target).length = target.length := by
  simp only [patch, List.length_append, List.length_take, List.length_drop]
  omega

/-- Up to the end of what was copied, a patched region is the old front and
the copy. -/
theorem take_patch_end {position : Nat} {source target : List α}
    (fits : position + source.length ≤ target.length) :
    (patch position source target).take (position + source.length) =
      target.take position ++ source := by
  have length : (target.take position ++ source).length =
      position + source.length := by
    rw [List.length_append, List.length_take_of_le (by omega)]
  rw [patch, List.take_left' length]

theorem getElem?_patch {position : Nat} {source target : List α}
    (fits : position + source.length ≤ target.length) (index : Nat) :
    (patch position source target)[index]? =
      if index < position then target[index]?
      else if index < position + source.length then
        source[index - position]?
      else target[index]? := by
  have front : (target.take position).length = position := by
    rw [List.length_take]
    omega
  unfold patch
  rw [List.append_assoc, List.getElem?_append, front]
  by_cases before : index < position
  · rw [if_pos before, if_pos before, List.getElem?_take, if_pos before]
  · rw [if_neg before, if_neg before, List.getElem?_append]
    by_cases inside : index < position + source.length
    · rw [if_pos (by omega), if_pos inside]
    · rw [if_neg (by omega), if_neg inside, List.getElem?_drop]
      congr 1
      omega

theorem getElem?_window (position length : Nat) (region : List α)
    (index : Nat) :
    (window position length region)[index]? =
      if index < length then region[position + index]? else none := by
  unfold window
  rw [List.getElem?_take, List.getElem?_drop]

theorem length_window {position length : Nat} {region : List α}
    (fits : position + length ≤ region.length) :
    (window position length region).length = length := by
  simp only [window, List.length_take, List.length_drop]
  omega

theorem window_append (position first second : Nat) (region : List α) :
    window position (first + second) region =
      window position first region ++
        window (position + first) second region := by
  rw [window, window, window, List.take_add, List.drop_drop]

/-- Reading the patched cells returns the source. -/
@[simp]
theorem window_patch_self {position : Nat} {source target : List α}
    (fits : position + source.length ≤ target.length) :
    window position source.length (patch position source target) =
      source := by
  apply List.ext_getElem?
  intro index
  rw [getElem?_window, getElem?_patch fits]
  by_cases inside : index < source.length
  · rw [if_pos inside, if_neg (by omega), if_pos (by omega)]
    congr 1
    omega
  · rw [if_neg inside, List.getElem?_eq_none (by omega)]

/-- A patch does not change a window that lies before or behind it. -/
theorem window_patch_disjoint
    {position start length : Nat} {source target : List α}
    (fits : position + source.length ≤ target.length)
    (disjoint :
      start + length ≤ position ∨ position + source.length ≤ start) :
    window start length (patch position source target) =
      window start length target := by
  apply List.ext_getElem?
  intro index
  rw [getElem?_window, getElem?_window, getElem?_patch fits]
  by_cases inside : index < length
  · rw [if_pos inside, if_pos inside]
    rcases disjoint with before | behind
    · rw [if_pos (by omega)]
    · rw [if_neg (by omega), if_neg (by omega)]
  · rw [if_neg inside, if_neg inside]

/-- A patch inside a window patches the window. -/
theorem window_patch_inside
    {position start length : Nat} {source target : List α}
    (fits : start + length ≤ target.length)
    (inside : start ≤ position)
    (ends : position + source.length ≤ start + length) :
    window start length (patch position source target) =
      patch (position - start) source (window start length target) := by
  have windowLength : (window start length target).length = length :=
    length_window fits
  apply List.ext_getElem?
  intro index
  rw [getElem?_window, getElem?_patch (by omega),
    getElem?_patch (by omega), getElem?_window]
  by_cases inWindow : index < length
  · rw [if_pos inWindow, if_pos inWindow]
    by_cases before : index < position - start
    · rw [if_pos before, if_pos (by omega)]
    · rw [if_neg before, if_neg (by omega)]
      by_cases within : index < position - start + source.length
      · rw [if_pos within, if_pos (by omega)]
        congr 1
        omega
      · rw [if_neg within, if_neg (by omega)]
  · rw [if_neg inWindow, if_neg inWindow]
    by_cases before : index < position - start
    · rw [if_pos before]
    · rw [if_neg before, if_neg (by omega)]

/-- A patch that starts with a window and runs over its end fills it. -/
theorem window_patch_front
    {position length : Nat} {source target : List α}
    (fits : position + source.length ≤ target.length)
    (covers : length ≤ source.length) :
    window position length (patch position source target) =
      source.take length := by
  apply List.ext_getElem?
  intro index
  rw [getElem?_window, getElem?_patch fits, List.getElem?_take]
  by_cases inside : index < length
  · rw [if_pos inside, if_pos inside, if_neg (by omega),
      if_pos (by omega)]
    congr 1
    omega
  · rw [if_neg inside, if_neg inside]

/-- Two adjacent patches are one. -/
theorem patch_patch_adjacent
    {position : Nat} {first second target : List α}
    (fits :
      position + first.length + second.length ≤ target.length) :
    patch (position + first.length) second (patch position first target) =
      patch position (first ++ second) target := by
  have firstFits : position + first.length ≤ target.length := by omega
  have bothFit :
      position + (first ++ second).length ≤ target.length := by
    rw [List.length_append]
    omega
  apply List.ext_getElem?
  intro index
  rw [getElem?_patch (by rw [length_patch firstFits]; omega),
    getElem?_patch firstFits, getElem?_patch bothFit,
    List.getElem?_append, List.length_append]
  by_cases before : index < position
  · rw [if_pos (by omega), if_pos before, if_pos before]
  · by_cases inFirst : index < position + first.length
    · rw [if_pos inFirst, if_neg before, if_pos inFirst, if_neg before,
        if_pos (by omega), if_pos (by omega)]
    · by_cases inSecond :
          index < position + first.length + second.length
      · rw [if_neg inFirst, if_pos inSecond, if_neg before,
          if_pos (by omega), if_neg (by omega)]
        congr 1
        omega
      · rw [if_neg inFirst, if_neg inSecond, if_neg before,
          if_neg inFirst, if_neg before, if_neg (by omega)]

/-! ## Copies over the beginning of a region -/

/-- What a region that held `old` holds after `new` was copied over its
beginning. -/
def overlay (new old : List α) : List α :=
  new ++ old.drop new.length

theorem patch_zero (source target : List α) :
    patch 0 source target = overlay source target := by
  simp [patch, overlay]

theorem length_overlay (new old : List α) :
    (overlay new old).length = max new.length old.length := by
  simp only [overlay, List.length_append, List.length_drop]
  omega

/-- The region holds exactly the copied cells when it held no more before. -/
theorem overlay_eq_new_iff (new old : List α) :
    overlay new old = new ↔ old.length ≤ new.length := by
  unfold overlay
  rw [List.append_right_eq_self]
  exact List.drop_eq_nil_iff

/-- A copy covers an earlier one of its length, or nothing. -/
theorem overlay_overlay_of_length {new last old : List α}
    (covers : last = [] ∨ last.length = new.length) :
    overlay new (overlay last old) = overlay new old := by
  rcases covers with isNil | same
  · rw [isNil]
    rfl
  · rw [overlay, overlay, ← same, List.drop_left, overlay, same]

/-- What a region that held `start` holds after a history of copies over its
beginning, the oldest first. -/
def overlayAll (start : List α) (history : List (List α)) : List α :=
  history.foldl (fun old new => overlay new old) start

@[simp]
theorem overlayAll_nil (start : List α) : overlayAll start [] = start :=
  rfl

@[simp]
theorem overlayAll_concat
    (start : List α) (history : List (List α)) (last : List α) :
    overlayAll start (history ++ [last]) =
      overlay last (overlayAll start history) := by
  simp [overlayAll]

/-- A region that was empty at first is as long as the longest source. -/
theorem length_overlayAll_le_iff
    (history : List (List α)) (bound : Nat) :
    (overlayAll [] history).length ≤ bound ↔
      ∀ source, source ∈ history → source.length ≤ bound := by
  induction history using List.reverseRecOn with
  | nil =>
      simp
  | append_singleton history last inductionHypothesis =>
      rw [overlayAll_concat, length_overlay, Nat.max_le,
        inductionHypothesis]
      simp only [List.mem_append, List.mem_singleton]
      constructor
      · rintro ⟨lastBound, earlierBound⟩ source
          (earlier | rfl)
        · exact earlierBound source earlier
        · exact lastBound
      · intro allBound
        exact ⟨allBound last (Or.inr rfl), fun source earlier =>
          allBound source (Or.inl earlier)⟩

/-- After a history of copies the region holds exactly the last source if and
only if no earlier source was longer. -/
theorem overlayAll_concat_eq_last_iff
    (history : List (List α)) (last : List α) :
    overlayAll [] (history ++ [last]) = last ↔
      ∀ source, source ∈ history → source.length ≤ last.length := by
  rw [overlayAll_concat, overlay_eq_new_iff, length_overlayAll_le_iff]

/-- Every cell of the region comes from some source. -/
theorem mem_overlayAll
    {history : List (List α)} {cell : α}
    (member : cell ∈ overlayAll [] history) :
    ∃ source, source ∈ history ∧ cell ∈ source := by
  induction history using List.reverseRecOn with
  | nil =>
      simp at member
  | append_singleton history last inductionHypothesis =>
      rw [overlayAll_concat, overlay, List.mem_append] at member
      rcases member with inLast | inRest
      · exact ⟨last, by simp, inLast⟩
      · obtain ⟨source, sourceMember, cellMember⟩ :=
          inductionHypothesis (List.mem_of_mem_drop inRest)
        exact ⟨source, by simp [sourceMember], cellMember⟩

end Esp32Source.Memory
