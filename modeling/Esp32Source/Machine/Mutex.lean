import Mathlib.Logic.Function.Basic

/-!
# A mutex and the threads between its lock and unlock

`Guards owner inside` says that the threads between lock and unlock are
exactly the owner of the mutex.  Taking a free mutex and giving it back keep
that, and then at most one thread is inside.
-/

namespace Esp32Source.Machine

universe u

variable {Thread : Type u} {owner : Option Thread} {inside : Thread → Prop}

def Guards (owner : Option Thread) (inside : Thread → Prop) : Prop :=
  ∀ thread, inside thread ↔ owner = some thread

namespace Guards

theorem unlocked (outside : ∀ thread, ¬ inside thread) :
    Guards none inside := by
  intro thread
  exact iff_of_false (outside thread) (Option.some_ne_none thread).symm

/-- At most one thread is between lock and unlock. -/
theorem unique (guards : Guards owner inside) {first second : Thread}
    (firstInside : inside first) (secondInside : inside second) :
    first = second := by
  have isFirst := (guards first).mp firstInside
  have isSecond := (guards second).mp secondInside
  exact Option.some.inj (isFirst.symm.trans isSecond)

theorem not_inside_of_free (guards : Guards (none : Option Thread) inside)
    (thread : Thread) : ¬ inside thread := by
  intro isInside
  exact absurd ((guards thread).mp isInside) (Option.some_ne_none thread).symm

variable {after : Thread → Prop} {thread : Thread}

/-- A thread that takes the free mutex gets inside. -/
theorem lock (guards : Guards (none : Option Thread) inside)
    (enters : after thread)
    (others : ∀ other, other ≠ thread → (after other ↔ inside other)) :
    Guards (some thread) after := by
  intro other
  by_cases same : other = thread
  · rw [same]
    exact iff_of_true enters rfl
  · rw [others other same]
    refine iff_of_false (guards.not_inside_of_free other) ?_
    intro isOwner
    exact same (Option.some.inj isOwner).symm

/-- The owner that gives the mutex back is outside again. -/
theorem unlock (guards : Guards owner inside) (isInside : inside thread)
    (leaves : ¬ after thread)
    (others : ∀ other, other ≠ thread → (after other ↔ inside other)) :
    Guards none after := by
  apply unlocked
  intro other
  by_cases same : other = thread
  · rw [same]
    exact leaves
  · rw [others other same]
    intro otherInside
    exact same (guards.unique otherInside isInside)

/-- Steps between lock and unlock, or outside, change nothing. -/
theorem stay (guards : Guards owner inside)
    (same : ∀ other, after other ↔ inside other) : Guards owner after := by
  intro other
  rw [same other]
  exact guards other

end Guards

end Esp32Source.Machine
