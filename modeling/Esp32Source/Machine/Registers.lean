import Esp32Source.Machine.History

/-!
# Register files with spilling writes

Each event assigns at most one field.  A write that runs over the end of its
field spills onto another field and damages the value there.

A file without spills holds the latest value assigned to each field.  With
spills it does so in every state of a history exactly when no event spills
onto a field that was assigned before, which is also exactly when no event
changes a field other than its own.
-/

namespace Esp32Source.Machine

universe u v w

/-- What events do to the fields of a register file. -/
structure RegisterFile
    (Event : Type u) (Field : Type v) (Value : Type w) where
  /-- The field that an event assigns, and its new value. -/
  assigns : Event → Option (Field × Value)
  /-- The field that an event spills onto. -/
  spills : Event → Option Field
  /-- What a spill leaves of the value of a field. -/
  damage : Field → Value → Value
  start : Field → Value

namespace RegisterFile

variable {Event : Type u} {Field : Type v} {Value : Type w}
  [DecidableEq Field] (file : RegisterFile Event Field Value)

/-- The value that an event assigns to one field. -/
def assigned (field : Field) (event : Event) : Option Value :=
  match file.assigns event with
  | some (own, value) => if own = field then some value else none
  | none => none

/-- The values of the fields after one event. -/
def next (values : Field → Value) (event : Event) : Field → Value :=
  fun field =>
    match file.assigned field event with
    | some value => value
    | none =>
        if file.spills event = some field then
          file.damage field (values field)
        else values field

def valuesAfter (history : List Event) : Field → Value :=
  history.foldl file.next file.start

/-- The latest value assigned to a field, or the one it had at the start. -/
def latestValue (field : Field) (history : List Event) : Value :=
  (latest (file.assigned field) history).getD (file.start field)

def HoldsLatest (history : List Event) : Prop :=
  ∀ field, file.valuesAfter history field = file.latestValue field history

/-- The event changes no field other than its own. -/
def ChangesOwnField (history : List Event) (event : Event) : Prop :=
  ∀ field, file.assigned field event = none →
    file.valuesAfter (history ++ [event]) field =
      file.valuesAfter history field

/-- The event spills onto no field that was assigned before. -/
def SpillsOntoUnassigned (history : List Event) (event : Event) : Prop :=
  ∀ field, file.spills event = some field →
    latest (file.assigned field) history = none

/-- A spill came after the last assignment of a field. -/
def Spoiled (history : List Event) (field : Field) : Prop :=
  ∃ front event behind,
    history = front ++ event :: behind ∧
      file.spills event = some field ∧
      latest (file.assigned field) front ≠ none ∧
      latest (file.assigned field) behind = none

/-- Spills are destructive: they change every assigned value, change nothing
twice, leave the values of the start alone and never hit the field that the
event assigns. -/
structure Destructive (allowed : Event → Prop) : Prop where
  changes : ∀ event other field value,
    file.spills event = some field → allowed other →
      file.assigned field other = some value →
      file.damage field value ≠ value
  idempotent : ∀ field value,
    file.damage field (file.damage field value) = file.damage field value
  keepsStart : ∀ field,
    file.damage field (file.start field) = file.start field
  elsewhere : ∀ event field,
    file.spills event = some field → file.assigned field event = none

theorem valuesAfter_concat (history : List Event) (event : Event) :
    file.valuesAfter (history ++ [event]) =
      file.next (file.valuesAfter history) event := by
  rw [valuesAfter, List.foldl_append]
  rfl

theorem latestValue_concat
    (field : Field) (history : List Event) (event : Event) :
    file.latestValue field (history ++ [event]) =
      (file.assigned field event).getD
        (file.latestValue field history) := by
  rw [latestValue, latest_concat]
  cases file.assigned field event <;> rfl

theorem assigns_of_assigned {event : Event} {field : Field} {value : Value}
    (isAssigned : file.assigned field event = some value) :
    file.assigns event = some (field, value) := by
  cases assigns : file.assigns event with
  | none =>
      rw [assigned, assigns] at isAssigned
      cases isAssigned
  | some entry =>
      obtain ⟨own, ownValue⟩ := entry
      rw [assigned, assigns] at isAssigned
      by_cases same : own = field
      · simp only [if_pos same] at isAssigned
        rw [same, Option.some_inj.mp isAssigned]
      · simp only [if_neg same] at isAssigned
        cases isAssigned

theorem assigned_eq_none_iff {event : Event} {field : Field} :
    file.assigned field event = none ↔
      ∀ value, file.assigns event ≠ some (field, value) := by
  constructor
  · intro unassigned value assigns
    rw [assigned, assigns] at unassigned
    simp at unassigned
  · intro never
    cases own : file.assigned field event with
    | none =>
        rfl
    | some value =>
        exact absurd (file.assigns_of_assigned own) (never value)

theorem next_of_assigned {event : Event} {field : Field} {value : Value}
    (isAssigned : file.assigned field event = some value)
    (values : Field → Value) :
    file.next values event field = value := by
  rw [next, isAssigned]

theorem next_of_spill {event : Event} {field : Field}
    (unassigned : file.assigned field event = none)
    (spill : file.spills event = some field) (values : Field → Value) :
    file.next values event field =
      file.damage field (values field) := by
  rw [next, unassigned]
  exact if_pos spill

theorem next_of_untouched {event : Event} {field : Field}
    (unassigned : file.assigned field event = none)
    (noSpill : file.spills event ≠ some field) (values : Field → Value) :
    file.next values event field = values field := by
  rw [next, unassigned]
  exact if_neg noSpill

/-- The values after an event that assigns the field `own`. -/
theorem next_of_assigns {event : Event} {own : Field} {value : Value}
    (assigns : file.assigns event = some (own, value))
    (values : Field → Value) (field : Field) :
    file.next values event field =
      if own = field then value
      else if file.spills event = some field then
        file.damage field (values field)
      else values field := by
  rw [next, assigned, assigns]
  by_cases same : own = field
  · simp only [if_pos same]
  · simp only [if_neg same]

/-- An event that assigns nothing and spills nowhere changes nothing. -/
theorem next_of_idle {event : Event}
    (assigns : file.assigns event = none)
    (spills : file.spills event = none) (values : Field → Value) :
    file.next values event = values := by
  funext field
  apply file.next_of_untouched
  · rw [assigned, assigns]
  · rw [spills]
    intro equality
    cases equality

theorem not_spoiled_of_never_assigned
    {history : List Event} {field : Field}
    (never : latest (file.assigned field) history = none) :
    ¬ file.Spoiled history field := by
  intro spoiled
  obtain ⟨front, event, behind, shape, _, assignedBefore, _⟩ := spoiled
  apply assignedBefore
  rw [shape] at never
  rw [latest_eq_none_iff] at never ⊢
  intro earlier member
  exact never earlier (List.mem_append_left _ member)

/-! ## States of a run -/

section Runs

variable {file} {allowed : Event → Prop}
  (destructive : file.Destructive allowed)

include destructive

/-- A value that was assigned in a history of allowed events is changed by a
spill. -/
theorem damage_latest_ne
    {history : List Event} {event : Event} {field : Field} {value : Value}
    (admissible : ∀ earlier, earlier ∈ history → allowed earlier)
    (spill : file.spills event = some field)
    (isLatest : latest (file.assigned field) history = some value) :
    file.damage field value ≠ value := by
  obtain ⟨front, source, behind, shape, isAssigned, _⟩ :=
    latest_eq_some_iff.mp isLatest
  have sourceAllowed : allowed source := by
    apply admissible
    rw [shape]
    simp
  exact destructive.changes event source field value spill sourceAllowed
    isAssigned

/-- While every field holds its latest value, one more event keeps it so
exactly if it spills onto no assigned field. -/
theorem holdsLatest_concat_iff
    {history : List Event} (event : Event)
    (admissible : ∀ earlier, earlier ∈ history → allowed earlier)
    (holds : file.HoldsLatest history) :
    file.HoldsLatest (history ++ [event]) ↔
      file.SpillsOntoUnassigned history event := by
  constructor
  · intro holdsNext field spill
    have unassigned := destructive.elsewhere event field spill
    have kept := holdsNext field
    rw [valuesAfter_concat, file.next_of_spill unassigned spill,
      latestValue_concat, unassigned, holds field] at kept
    cases isLatest : latest (file.assigned field) history with
    | none =>
        rfl
    | some value =>
        rw [Option.getD_none, latestValue, isLatest,
          Option.getD_some] at kept
        exact absurd kept
          (damage_latest_ne destructive admissible spill isLatest)
  · intro unassignedBefore field
    rw [valuesAfter_concat, latestValue_concat]
    cases own : file.assigned field event with
    | some value =>
        rw [file.next_of_assigned own, Option.getD_some]
    | none =>
        rw [Option.getD_none]
        by_cases spill : file.spills event = some field
        · have never := unassignedBefore field spill
          rw [file.next_of_spill own spill, holds field, latestValue,
            never, Option.getD_none, destructive.keepsStart]
        · rw [file.next_of_untouched own spill, holds field]

/-- Every field holds its latest value in every state of a history exactly
when no event spills onto a field assigned before. -/
theorem atEveryState_holdsLatest_iff
    {history : List Event}
    (admissible : ∀ event, event ∈ history → allowed event) :
    AtEveryState file.HoldsLatest history ↔
      AtEveryStep file.SpillsOntoUnassigned history :=
  atEveryState_iff_atEveryStep allowed (fun _ => rfl)
    (fun _ event earlierAllowed _ everywhere =>
      holdsLatest_concat_iff destructive event earlierAllowed
        everywhere.last)
    admissible

/-! ## The last state of a run -/

theorem spoiled_concat_iff
    (history : List Event) (event : Event) (field : Field) :
    file.Spoiled (history ++ [event]) field ↔
      file.assigned field event = none ∧
        (file.Spoiled history field ∨
          (file.spills event = some field ∧
            latest (file.assigned field) history ≠ none)) := by
  constructor
  · intro spoiled
    obtain ⟨front, chosen, behind, shape, spill, before, quiet⟩ := spoiled
    rcases concat_eq_append_cons_iff.mp shape with
      ⟨_, sameFront, sameEvent⟩ | ⟨rest, isConcat, sameHistory⟩
    · rw [sameFront, sameEvent]
      exact ⟨destructive.elsewhere chosen field spill,
        Or.inr ⟨spill, before⟩⟩
    · rw [isConcat, latest_concat, Option.or_eq_none_iff] at quiet
      exact ⟨quiet.1,
        Or.inl ⟨front, chosen, rest, sameHistory, spill, before, quiet.2⟩⟩
  · intro parts
    obtain ⟨unassigned, spoiled | ⟨spill, before⟩⟩ := parts
    · obtain ⟨front, chosen, rest, shape, spill, before, quiet⟩ := spoiled
      refine ⟨front, chosen, rest ++ [event], by simp [shape], spill, before,
        ?_⟩
      rw [latest_concat_of_none unassigned, quiet]
    · exact ⟨history, event, [], rfl, spill, before, rfl⟩

/-- A spoiled field holds its damaged latest value, every other field its
latest value. -/
theorem valuesAfter_eq (history : List Event) (field : Field) :
    (file.Spoiled history field →
      file.valuesAfter history field =
        file.damage field (file.latestValue field history)) ∧
      (¬ file.Spoiled history field →
        file.valuesAfter history field =
          file.latestValue field history) := by
  induction history using List.reverseRecOn with
  | nil =>
      refine ⟨fun spoiled => ?_, fun _ => rfl⟩
      exact absurd spoiled
        (file.not_spoiled_of_never_assigned rfl)
  | append_singleton history event inductionHypothesis =>
      rw [spoiled_concat_iff destructive, valuesAfter_concat,
        latestValue_concat]
      cases own : file.assigned field event with
      | some value =>
          rw [file.next_of_assigned own]
          exact ⟨fun spoiled => absurd spoiled.1 (by simp), fun _ => rfl⟩
      | none =>
          rw [Option.getD_none]
          by_cases spill : file.spills event = some field
          · rw [file.next_of_spill own spill]
            by_cases before : latest (file.assigned field) history = none
            · have clean :=
                file.not_spoiled_of_never_assigned before
              have value := inductionHypothesis.2 clean
              rw [value, latestValue, before, Option.getD_none,
                destructive.keepsStart]
              exact ⟨fun _ => rfl, fun _ => rfl⟩
            · refine ⟨fun _ => ?_, fun clean => ?_⟩
              · by_cases spoiled : file.Spoiled history field
                · rw [inductionHypothesis.1 spoiled,
                    destructive.idempotent]
                · rw [inductionHypothesis.2 spoiled]
              · exact absurd ⟨rfl, Or.inr ⟨spill, before⟩⟩ clean
          · rw [file.next_of_untouched own spill]
            simpa [spill] using inductionHypothesis

/-- After a history of allowed events every field holds its latest value
exactly when no field is spoiled. -/
theorem holdsLatest_iff
    {history : List Event}
    (admissible : ∀ event, event ∈ history → allowed event) :
    file.HoldsLatest history ↔ ∀ field, ¬ file.Spoiled history field := by
  constructor
  · intro holds field spoiled
    have damaged := (valuesAfter_eq destructive history field).1 spoiled
    obtain ⟨front, event, behind, shape, spill, before, quiet⟩ := spoiled
    rw [holds field] at damaged
    have sameLatest :
        latest (file.assigned field) history =
          latest (file.assigned field) front := by
      rw [shape, latest_append,
        ← List.singleton_append, latest_append, quiet, Option.none_or]
      have unassigned := destructive.elsewhere event field spill
      simp [latest, unassigned]
    cases isLatest : latest (file.assigned field) front with
    | none =>
        exact before isLatest
    | some value =>
        rw [isLatest] at sameLatest
        rw [latestValue, sameLatest, Option.getD_some] at damaged
        exact damage_latest_ne destructive admissible spill sameLatest
          damaged.symm
  · intro clean field
    exact (valuesAfter_eq destructive history field).2 (clean field)

/-! ## Two events -/

/-- Two allowed events that assign different fields commute exactly when
neither spills onto the field of the other. -/
theorem next_comm_iff
    {left right : Event} (leftAllowed : allowed left)
    (rightAllowed : allowed right)
    (different :
      ∀ field, file.assigned field left = none ∨
        file.assigned field right = none)
    (values : Field → Value) :
    file.next (file.next values left) right =
        file.next (file.next values right) left ↔
      (∀ field, file.spills left = some field →
        file.assigned field right = none) ∧
      (∀ field, file.spills right = some field →
        file.assigned field left = none) := by
  constructor
  · intro commute
    refine ⟨fun field spill => ?_, fun field spill => ?_⟩
    · have unassigned := destructive.elsewhere left field spill
      have atField := congrFun commute field
      cases own : file.assigned field right with
      | none =>
          rfl
      | some value =>
          rw [file.next_of_assigned own, file.next_of_spill unassigned spill,
            file.next_of_assigned own] at atField
          exact absurd atField.symm
            (destructive.changes left right field value spill rightAllowed
              own)
    · have unassigned := destructive.elsewhere right field spill
      have atField := congrFun commute field
      cases own : file.assigned field left with
      | none =>
          rfl
      | some value =>
          rw [file.next_of_assigned own, file.next_of_spill unassigned spill,
            file.next_of_assigned own] at atField
          exact absurd atField
            (destructive.changes right left field value spill leftAllowed
              own)
  · intro apart
    funext field
    cases ownLeft : file.assigned field left with
    | some value =>
        have unassigned : file.assigned field right = none :=
          (different field).resolve_left (by simp [ownLeft])
        have noSpill : file.spills right ≠ some field := by
          intro spill
          rw [apart.2 field spill] at ownLeft
          cases ownLeft
        rw [file.next_of_assigned ownLeft,
          file.next_of_untouched unassigned noSpill,
          file.next_of_assigned ownLeft]
    | none =>
        cases ownRight : file.assigned field right with
        | some value =>
            have noSpill : file.spills left ≠ some field := by
              intro spill
              rw [apart.1 field spill] at ownRight
              cases ownRight
            rw [file.next_of_assigned ownRight,
              file.next_of_untouched ownLeft noSpill,
              file.next_of_assigned ownRight]
        | none =>
            simp only [next, ownLeft, ownRight]
            split <;> split <;> rfl

end Runs

/-- Every field holds its latest value in every state of a history exactly
when every event changes only its own field. -/
theorem atEveryState_holdsLatest_iff_changesOwnField
    (history : List Event) :
    AtEveryState file.HoldsLatest history ↔
      AtEveryStep file.ChangesOwnField history := by
  refine atEveryState_iff_atEveryStep (fun _ => True) (fun _ => rfl) ?_
    (fun _ _ => trivial)
  intro earlier event _ _ everywhere
  have holds := everywhere.last
  constructor
  · intro holdsNext field unassigned
    rw [holdsNext field, latestValue_concat, unassigned, holds field,
      Option.getD_none]
  · intro changesOwn field
    rw [latestValue_concat]
    cases own : file.assigned field event with
    | some value =>
        rw [valuesAfter_concat, file.next_of_assigned own,
          Option.getD_some]
    | none =>
        rw [changesOwn field own, holds field, Option.getD_none]

end RegisterFile

end Esp32Source.Machine
