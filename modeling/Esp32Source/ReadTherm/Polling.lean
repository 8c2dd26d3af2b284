import Mathlib.Algebra.Group.Nat.Defs

/-!
# Polling the sensors

The polling loop reads the sensors in turn: the index goes up by one after
every reading, and back to zero behind the last sensor.  The condition of the
loop compares it with one, whatever the number of sensors is, so that the loop
goes on for one or two sensors and ends after two readings where there are
more.
-/

namespace Esp32Source.ReadTherm

/-! ## The loop -/

/-- What a pass makes of `i` behind its reading. -/
def nextIndex (totalFile i : Nat) : Nat :=
  if i + 1 ≥ totalFile then 0 else i + 1

/-- `i` at the `k`-th test of the loop condition, or `none` where the loop has
ended before.  It is a `char` that never gets above two. -/
def indexAt (totalFile : Nat) : Nat → Option Nat
  | 0 => some 0
  | k + 1 =>
      match indexAt totalFile k with
      | none => none
      -- the condition has a constant where the body has totalFile
      | some i => if i ≤ 1 then some (nextIndex totalFile i) else none

/-- The sensor of the `k`-th reading, or `none` where there is no such
reading. -/
def reading (numSlave : Int) (totalFile k : Nat) : Option Nat :=
  if numSlave ≥ 1 then
    match indexAt totalFile k with
    | none => none
    | some i => if i ≤ 1 then some i else none
  else
    none

/-! ## What it is for -/

/-- The readings never end, go through the sensors in turn, and stay inside
the sensors found. -/
structure PollsInTurn (sensors : Nat) (reading : Nat → Option Nat) :
    Prop where
  inTurn : ∀ k, reading k = some (k % sensors)
  visits : ∀ k sensor, sensor < sensors →
    ∃ j, k ≤ j ∧ j < k + sensors ∧ reading j = some sensor
  inRange : ∀ k sensor, reading k = some sensor → sensor < sensors

/-- Any window as long as the number of sensors has each of them. -/
theorem exists_turn {sensors : Nat} (k : Nat) {sensor : Nat}
    (inRange : sensor < sensors) :
    ∃ j, k ≤ j ∧ j < k + sensors ∧ j % sensors = sensor := by
  have positive : 0 < sensors := Nat.zero_lt_of_lt inRange
  have offset : k % sensors < sensors := Nat.mod_lt k positive
  let wait := (sensor + (sensors - k % sensors)) % sensors
  have short : wait < sensors := Nat.mod_lt _ positive
  refine ⟨k + wait, Nat.le_add_right k wait, by omega, ?_⟩
  calc (k + wait) % sensors
      = (k % sensors + (sensor + (sensors - k % sensors))) % sensors := by
        rw [Nat.add_mod_mod, Nat.mod_add_mod]
    _ = (sensor + sensors) % sensors := by
        congr 1
        omega
    _ = sensor := by
        rw [Nat.add_mod_right, Nat.mod_eq_of_lt inRange]

theorem pollsInTurn_of_inTurn {sensors : Nat} {reading : Nat → Option Nat}
    (positive : 0 < sensors)
    (inTurn : ∀ k, reading k = some (k % sensors)) :
    PollsInTurn sensors reading where
  inTurn := inTurn
  visits := by
    intro k sensor inRange
    obtain ⟨j, behind, inWindow, isTurn⟩ := exists_turn k inRange
    exact ⟨j, behind, inWindow, by rw [inTurn, isTurn]⟩
  inRange := by
    intro k sensor isReading
    rw [inTurn] at isReading
    rw [← Option.some.inj isReading]
    exact Nat.mod_lt k positive

/-! ## The readings of the loop -/

/-- The next index is the next turn. -/
theorem nextIndex_mod {totalFile : Nat} (found : 0 < totalFile) (k : Nat) :
    nextIndex totalFile (k % totalFile) = (k + 1) % totalFile := by
  have inRange : k % totalFile < totalFile := Nat.mod_lt k found
  rw [nextIndex, ← Nat.mod_add_mod]
  split
  · have isLast : k % totalFile + 1 = totalFile := by omega
    rw [isLast, Nat.mod_self]
  · exact (Nat.mod_eq_of_lt (by omega)).symm

/-- With one or two sensors the index is always the turn. -/
theorem indexAt_of_few {totalFile : Nat} (found : 0 < totalFile)
    (few : totalFile ≤ 2) (k : Nat) :
    indexAt totalFile k = some (k % totalFile) := by
  induction k with
  | zero =>
      rw [Nat.zero_mod]
      rfl
  | succ k inductionHypothesis =>
      have inRange : k % totalFile < totalFile := Nat.mod_lt k found
      rw [indexAt, inductionHypothesis]
      dsimp only
      rw [if_pos (by omega), nextIndex_mod found]

theorem indexAt_one {totalFile : Nat} (many : 2 < totalFile) :
    indexAt totalFile 1 = some 1 := by
  rw [indexAt, indexAt]
  dsimp only
  rw [if_pos (Nat.zero_le 1), nextIndex, if_neg (by omega)]

/-- With more sensors the loop ends at its third test. -/
theorem indexAt_of_many {totalFile : Nat} (many : 2 < totalFile) :
    indexAt totalFile 2 = some 2 := by
  rw [indexAt, indexAt_one many]
  dsimp only
  rw [if_pos (Nat.le_refl 1), nextIndex, if_neg (by omega)]

theorem reading_of_index {numSlave : Int} (slaves : 1 ≤ numSlave)
    {totalFile k i : Nat} (isIndex : indexAt totalFile k = some i) :
    reading numSlave totalFile k = if i ≤ 1 then some i else none := by
  rw [reading, if_pos slaves, isIndex]

theorem indexAt_ended {totalFile : Nat} (many : 2 < totalFile) (k : Nat) :
    indexAt totalFile (k + 3) = none := by
  induction k with
  | zero =>
      rw [Nat.zero_add, indexAt, indexAt_of_many many]
      rfl
  | succ k inductionHypothesis =>
      rw [Nat.add_right_comm, indexAt, inductionHypothesis]

/-- With more sensors the first two are read, once each. -/
theorem reading_of_many {numSlave : Int} (slaves : 1 ≤ numSlave)
    {totalFile : Nat} (many : 2 < totalFile) (k : Nat) :
    reading numSlave totalFile k = if k < 2 then some k else none := by
  match k with
  | 0 =>
      rw [reading_of_index slaves rfl]
      rfl
  | 1 =>
      rw [reading_of_index slaves (indexAt_one many)]
      rfl
  | 2 =>
      rw [reading_of_index slaves (indexAt_of_many many)]
      rfl
  | k + 3 =>
      rw [reading, if_pos slaves, indexAt_ended many, if_neg (by omega)]

/-- The loop polls all sensors for ever exactly when there are at most two of
them. -/
theorem pollsInTurn_iff {numSlave : Int} {totalFile : Nat}
    (found : 1 ≤ totalFile) (slaves : 1 ≤ numSlave) :
    PollsInTurn totalFile (reading numSlave totalFile) ↔ totalFile ≤ 2 := by
  constructor
  · intro polls
    rcases Nat.lt_or_ge 2 totalFile with many | few
    · have ended := polls.inTurn 2
      rw [reading_of_many slaves many] at ended
      cases ended
    · exact few
  · intro few
    apply pollsInTurn_of_inTurn found
    intro k
    have inRange : k % totalFile < totalFile := Nat.mod_lt k found
    rw [reading_of_index slaves (indexAt_of_few found few k),
      if_pos (by omega)]

/-- Two sensors are read in turn. -/
theorem pollsInTurn_iff_twoSensors :
    PollsInTurn 2 (reading 2 2) :=
  (pollsInTurn_iff (by decide) (by decide)).mpr (by decide)

/-- Three sensors are not polled: the third reading is not made. -/
theorem threeSensors_end :
    ¬ PollsInTurn 3 (reading 3 3) := by
  intro polls
  exact absurd (polls.inTurn 2) (by decide)

end Esp32Source.ReadTherm
