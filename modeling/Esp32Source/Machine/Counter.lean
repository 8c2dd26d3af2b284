import Mathlib.Algebra.Group.Nat.Defs

/-!
# Waiting on a counter that wraps

A free-running counter of some width is read in a loop until it stands at
least a given distance from where it stood at the start.  The difference of
two readings is taken in the width of the counter, so that a wait may run over
the point where the counter wraps.  Such a wait is never too short.
-/

namespace Esp32Source.Machine

/-- What the counter shows at a cycle. -/
def counterAt (width cycle : Nat) : BitVec width :=
  BitVec.ofNat width cycle

/-- The loop reads the counter at the cycle `start` and then at the cycles of
`readings`, one after the other; it ends at the first reading at a distance of
`wait` or more. -/
def waitEnd {width : Nat} (wait : BitVec width) (start : Nat) :
    List Nat → Option Nat
  | [] => none
  | reading :: later =>
      if counterAt width reading - counterAt width start < wait then
        waitEnd wait start later
      else some reading

/-- The difference of two readings is the distance of their cycles, as far as
the counter can tell. -/
theorem toNat_counterAt_sub {width start reading : Nat}
    (behind : start ≤ reading) :
    (counterAt width reading - counterAt width start).toNat =
      (reading - start) % 2 ^ width := by
  have sum : counterAt width reading =
      counterAt width (reading - start) + counterAt width start := by
    rw [counterAt, counterAt, counterAt, ← BitVec.ofNat_add,
      Nat.sub_add_cancel behind]
  rw [sum, BitVec.add_sub_cancel, counterAt, BitVec.toNat_ofNat]

/-- A wait ends at one of its readings, and not before its time. -/
theorem waitEnd_not_early {width start stop : Nat} {wait : BitVec width}
    {readings : List Nat}
    (behind : ∀ reading, reading ∈ readings → start ≤ reading)
    (ends : waitEnd wait start readings = some stop) :
    stop ∈ readings ∧ start + wait.toNat ≤ stop := by
  induction readings with
  | nil =>
      cases ends
  | cons reading later inductionHypothesis =>
      rw [waitEnd] at ends
      rw [List.forall_mem_cons] at behind
      by_cases tooShort :
          counterAt width reading - counterAt width start < wait
      · rw [if_pos tooShort] at ends
        obtain ⟨member, notEarly⟩ := inductionHypothesis behind.2 ends
        exact ⟨List.mem_cons_of_mem reading member, notEarly⟩
      · rw [if_neg tooShort] at ends
        have same := Option.some_inj.mp ends
        rw [BitVec.lt_def, toNat_counterAt_sub behind.1] at tooShort
        have elapsed := Nat.mod_le (reading - start) (2 ^ width)
        refine ⟨same ▸ List.mem_cons_self, ?_⟩
        omega

end Esp32Source.Machine
