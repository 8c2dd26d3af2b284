import Esp32Source.Machine.History

/-!
# Refinement by simulation

A checked machine refines a total one when it handles every allowed event
without a fault, what is seen of its output is what the total machine puts
out, and the two states stay related.  Proved for one step, this holds of
every run: the state reached is related to that of the total machine, and
every step shows what the total machine puts out.
-/

namespace Esp32Source.Machine

universe u v w x y z

section Refinement

variable {State : Type u} {Abstract : Type v} {Event : Type w}
  {Output : Type x} {Seen : Type y} {Fault : Type z}

/-- The event is handled as the total machine handles it. -/
def SimulatesStep (step : State → Event → Except Fault (State × Output))
    (handle : Abstract → Event → Abstract × Seen) (seen : Output → Seen)
    (refines : State → Abstract → Prop) (state : State) (model : Abstract)
    (event : Event) : Prop :=
  ∃ next output,
    step state event = .ok (next, output) ∧
      seen output = (handle model event).2 ∧
      refines next (handle model event).1

/-- Behind the events in front of it, the event is handled and shows what the
total machine puts out. -/
def ShowsOutput (step : State → Event → Except Fault (State × Output))
    (handle : Abstract → Event → Abstract × Seen) (seen : Output → Seen)
    (start : State) (abstract : Abstract) (front : List Event)
    (event : Event) : Prop :=
  ∃ middle next output,
    after step start front = .ok middle ∧
      step middle event = .ok (next, output) ∧
      seen output = (handle (final handle abstract front) event).2

theorem final_append (handle : Abstract → Event → Abstract × Seen)
    (abstract : Abstract) (front behind : List Event) :
    final handle abstract (front ++ behind) =
      final handle (final handle abstract front) behind := by
  rw [final, List.foldl_append]
  rfl

/-- A machine that is told of each event in other words. -/
theorem final_map {Told : Type x} (handle : Abstract → Told → Abstract × Seen)
    (told : Event → Told) (abstract : Abstract) (history : List Event) :
    final (fun model event => handle model (told event)) abstract history =
      final handle abstract (history.map told) := by
  rw [final, final, List.foldl_map]

variable {step : State → Event → Except Fault (State × Output)}
  {handle : Abstract → Event → Abstract × Seen} {seen : Output → Seen}
  {refines : State → Abstract → Prop} {start : State} {abstract : Abstract}
  {allowed : Event → Prop}

theorem after_refines (initial : refines start abstract)
    (simulates : ∀ state model event, refines state model → allowed event →
      SimulatesStep step handle seen refines state model event)
    {history : List Event}
    (admissible : ∀ event, event ∈ history → allowed event) :
    ∃ reached, after step start history = .ok reached ∧
      refines reached (final handle abstract history) := by
  refine after_total
    (fun front middle => refines middle (final handle abstract front))
    allowed initial ?_ admissible
  intro front event middle related allows
  obtain ⟨next, output, handled, _, relatedNext⟩ :=
    simulates middle (final handle abstract front) event related allows
  refine ⟨next, output, handled, ?_⟩
  rw [final_concat]
  exact relatedNext

theorem showsOutput_of_refines (initial : refines start abstract)
    (simulates : ∀ state model event, refines state model → allowed event →
      SimulatesStep step handle seen refines state model event)
    {history : List Event}
    (admissible : ∀ event, event ∈ history → allowed event) :
    AtEveryStep (ShowsOutput step handle seen start abstract) history := by
  intro front event behind shape
  rw [shape, List.forall_mem_append, List.forall_mem_cons] at admissible
  obtain ⟨middle, reached, related⟩ :=
    after_refines initial simulates admissible.1
  obtain ⟨next, output, handled, isSeen, _⟩ :=
    simulates middle (final handle abstract front) event related
      admissible.2.1
  exact ⟨middle, next, output, reached, handled, isSeen⟩

end Refinement

end Esp32Source.Machine
