import Esp32Source.Ebbchar.Module

/-!
# Interrupts and work while the module is unloaded

Three activities run beside one another: the button interrupt, which queues
the work item, the kernel, which runs a queued item at any later time, and the
calls of `ebbchar_exit`.  `free_irq`, the last of these calls, ends the
interrupts, but nothing cancels an item that is already queued.

An item that is queued when `ebbchar_exit` returns can be run at any time
afterwards, and none is queued later.  So the module is safe from then on
exactly when nothing is queued at that moment.
-/

namespace Esp32Source.Ebbchar

open Memory Machine

/-- A loaded module and the kernel around it: whether `ext_intr` is registered,
whether the work item is queued, and the remaining calls of `ebbchar_exit`,
once it was entered. -/
structure Unload where
  handles : Handles
  module : Module
  irqRequested : Bool
  workPending : Bool
  exiting : Option (List ExitCall)

inductive UnloadEvent where
  | interrupt
  | work
  | exit
  deriving DecidableEq, Repr

/-- `ext_intr`: `schedule_work` queues the item unless it is queued. -/
def Unload.extIntr (state : Unload) : Unload :=
  { state with workPending := true }

/-- `ebbchar_exit` has returned. -/
def Unload.Returned (state : Unload) : Prop :=
  state.exiting = some []

instance (state : Unload) : Decidable state.Returned :=
  inferInstanceAs (Decidable (_ = _))

/-- Enter `ebbchar_exit`, or make its next call. -/
def Unload.exitStep (state : Unload) : Unload :=
  match state.exiting with
  | none => { state with exiting := some ebbcharExit }
  | some [] => state
  | some (call :: calls) =>
      { state with
        module := exitCall state.handles state.module call,
        irqRequested := state.irqRequested && call ≠ .freeIrq,
        exiting := some calls }

/-- One event; the output says whether it starts `workQueueFunc`.  Behind the
return of `ebbchar_exit` the function is no longer there, and what starting it
does is not said. -/
def Unload.step (state : Unload) : UnloadEvent → Unload × Bool
  | .interrupt =>
      if state.irqRequested then (state.extIntr, false) else (state, false)
  | .work =>
      if state.workPending then
        let state := { state with workPending := false }
        if state.Returned then (state, true)
        else
          ({ state with
              module := { state.module with
                driver := workQueueFunc state.module.driver } },
            true)
      else (state, false)
  | .exit => (state.exitStep, false)

/-- A module whose load has succeeded. -/
def Unload.start (handles : Handles) (module : Module) : Unload where
  handles
  module
  irqRequested := true
  workPending := false
  exiting := none

def unloadAfter (handles : Handles) (module : Module)
    (history : List UnloadEvent) : Unload :=
  final Unload.step (Unload.start handles module) history

/-- The event does not start `workQueueFunc` behind the return of
`ebbchar_exit`. -/
def StartsWhileLoaded (handles : Handles) (module : Module)
    (front : List UnloadEvent) (event : UnloadEvent) : Prop :=
  ((unloadAfter handles module front).step event).2 = true →
    ¬ (unloadAfter handles module front).Returned

/-- If the event is the last call of `ebbchar_exit`, no work item is queued. -/
def ReturnsDrained (handles : Handles) (module : Module)
    (front : List UnloadEvent) (event : UnloadEvent) : Prop :=
  event = .exit →
    (unloadAfter handles module front).exiting = some [.freeIrq] →
      (unloadAfter handles module front).workPending = false

/-! ## What the events can do -/

/-- The remaining calls end with `free_irq`, which ends the interrupts. -/
structure OnItsWay (state : Unload) : Prop where
  ends : ∀ calls, state.exiting = some calls →
    calls = [] ∨ ∃ earlier, calls = earlier ++ [.freeIrq]
  requested : state.Returned → state.irqRequested = false

theorem onItsWay_start (handles : Handles) (module : Module) :
    OnItsWay (Unload.start handles module) where
  ends := nofun
  requested := nofun

theorem OnItsWay.exitStep {state : Unload} (onItsWay : OnItsWay state) :
    OnItsWay state.exitStep := by
  rw [Unload.exitStep]
  cases exiting : state.exiting with
  | none =>
      refine ⟨?_, nofun⟩
      intro calls entered
      cases entered
      exact Or.inr ⟨ebbcharExit.dropLast, rfl⟩
  | some calls =>
      cases calls with
      | nil =>
          exact onItsWay
      | cons call calls =>
          have shape :=
            (onItsWay.ends _ exiting).resolve_left (List.cons_ne_nil _ _)
          obtain ⟨earlier, shape⟩ := shape
          cases earlier with
          | nil =>
              injection shape with isFreeIrq isEmpty
              refine ⟨?_, ?_⟩
              · intro remaining same
                cases same
                exact Or.inl isEmpty
              · intro _
                dsimp only
                rw [isFreeIrq]
                simp
          | cons first earlier =>
              injection shape with _ remainingShape
              refine ⟨?_, ?_⟩
              · intro remaining same
                cases same
                exact Or.inr ⟨earlier, remainingShape⟩
              · intro returned
                rw [Unload.Returned, remainingShape] at returned
                simp at returned

theorem OnItsWay.step {state : Unload} (onItsWay : OnItsWay state)
    (event : UnloadEvent) : OnItsWay (state.step event).1 := by
  cases event with
  | exit =>
      exact onItsWay.exitStep
  | interrupt =>
      rw [Unload.step]
      split
      · exact ⟨onItsWay.ends, onItsWay.requested⟩
      · exact onItsWay
  | work =>
      rw [Unload.step]
      split
      · dsimp only
        split
        · exact ⟨onItsWay.ends, onItsWay.requested⟩
        · exact ⟨onItsWay.ends, onItsWay.requested⟩
      · exact onItsWay

theorem unloadAfter_onItsWay (handles : Handles) (module : Module)
    (history : List UnloadEvent) :
    OnItsWay (unloadAfter handles module history) := by
  induction history using List.reverseRecOn with
  | nil =>
      exact onItsWay_start handles module
  | append_singleton history event inductionHypothesis =>
      rw [unloadAfter, final_concat]
      exact inductionHypothesis.step event

/-- Behind the return nothing is queued any more. -/
theorem Unload.step_of_returned {state : Unload} (returned : state.Returned)
    (noIrq : state.irqRequested = false)
    (drained : state.workPending = false) (event : UnloadEvent) :
    state.step event = (state, false) := by
  cases event with
  | interrupt =>
      rw [Unload.step, noIrq]
      rfl
  | work =>
      rw [Unload.step, drained]
      rfl
  | exit =>
      have exiting : state.exiting = some [] := returned
      rw [Unload.step, Unload.exitStep, exiting]

/-- Only the last call of `ebbchar_exit` makes it return. -/
theorem Unload.returned_of_step {state : Unload} (onItsWay : OnItsWay state)
    {event : UnloadEvent} (returned : (state.step event).1.Returned)
    (notYet : ¬ state.Returned) :
    event = .exit ∧ state.exiting = some [.freeIrq] := by
  cases event with
  | interrupt =>
      rw [Unload.step] at returned
      split at returned
      · exact absurd returned notYet
      · exact absurd returned notYet
  | work =>
      rw [Unload.step] at returned
      split at returned
      · dsimp only at returned
        split at returned
        · exact absurd returned notYet
        · exact absurd returned notYet
      · exact absurd returned notYet
  | exit =>
      refine ⟨rfl, ?_⟩
      change state.exitStep.Returned at returned
      rw [Unload.exitStep] at returned
      cases exiting : state.exiting with
      | none =>
          rw [exiting] at returned
          cases returned
      | some calls =>
          rw [exiting] at returned
          cases calls with
          | nil =>
              exact absurd exiting notYet
          | cons call calls =>
              have isLast : some calls = some [] := returned
              injection isLast with isLast
              have shape :=
                (onItsWay.ends _ exiting).resolve_left (List.cons_ne_nil _ _)
              obtain ⟨earlier, shape⟩ := shape
              rw [isLast] at shape ⊢
              cases earlier with
              | nil => rw [shape]; rfl
              | cons first earlier => simp at shape

/-! ## Runs -/

/-- In a run that returns drained, nothing is queued behind the return. -/
theorem drained_of_returned {handles : Handles} {module : Module}
    {history : List UnloadEvent}
    (everywhere : AtEveryStep (ReturnsDrained handles module) history) :
    (unloadAfter handles module history).Returned →
      (unloadAfter handles module history).workPending = false := by
  induction history using List.reverseRecOn with
  | nil =>
      intro returned
      cases returned
  | append_singleton history event inductionHypothesis =>
      rw [atEveryStep_concat_iff] at everywhere
      have onItsWay := unloadAfter_onItsWay handles module history
      rw [unloadAfter, final_concat, ← unloadAfter]
      intro returned
      by_cases before : (unloadAfter handles module history).Returned
      · have drained := inductionHypothesis everywhere.1 before
        rw [Unload.step_of_returned before (onItsWay.requested before)
          drained]
        exact drained
      · obtain ⟨isExit, isLast⟩ :=
          Unload.returned_of_step onItsWay returned before
        have drained := everywhere.2 isExit isLast
        rw [isExit, Unload.step, Unload.exitStep, isLast]
        exact drained

theorem startsWhileLoaded_of_drained {handles : Handles} {module : Module}
    {front : List UnloadEvent}
    (drained : (unloadAfter handles module front).Returned →
      (unloadAfter handles module front).workPending = false)
    (event : UnloadEvent) : StartsWhileLoaded handles module front event := by
  intro starts returned
  have noIrq :=
    (unloadAfter_onItsWay handles module front).requested returned
  rw [Unload.step_of_returned returned noIrq (drained returned)] at starts
  cases starts

theorem Unload.Returned.step {state : Unload} (returned : state.Returned)
    (event : UnloadEvent) : (state.step event).1.Returned := by
  cases event with
  | exit =>
      have exiting : state.exiting = some [] := returned
      rw [Unload.step, Unload.exitStep, exiting]
      exact returned
  | interrupt =>
      rw [Unload.step]
      split
      · exact returned
      · exact returned
  | work =>
      rw [Unload.step]
      split
      · dsimp only
        split
        · exact returned
        · exact returned
      · exact returned

theorem returned_append {handles : Handles} {module : Module}
    {front : List UnloadEvent}
    (returned : (unloadAfter handles module front).Returned)
    (later : List UnloadEvent) :
    (unloadAfter handles module (front ++ later)).Returned := by
  induction later using List.reverseRecOn with
  | nil =>
      rw [List.append_nil]
      exact returned
  | append_singleton later event inductionHypothesis =>
      rw [← List.append_assoc, unloadAfter, final_concat]
      exact inductionHypothesis.step event

/-- In every state of a run, `workQueueFunc` is not started behind the return
of `ebbchar_exit`. -/
def NeverStartedBehindReturn (handles : Handles) (module : Module)
    (history : List UnloadEvent) : Prop :=
  AtEveryStep (StartsWhileLoaded handles module) history

/-- A run whose returns are drained starts `workQueueFunc` only while the
module is loaded. -/
theorem neverStarted_of_drained {handles : Handles} {module : Module}
    {history : List UnloadEvent}
    (everywhere : AtEveryStep (ReturnsDrained handles module) history) :
    NeverStartedBehindReturn handles module history := by
  intro front event behind shape
  apply startsWhileLoaded_of_drained
  apply drained_of_returned
  intro before earlier middle frontShape
  apply everywhere before earlier (middle ++ event :: behind)
  rw [shape, frontShape, List.append_assoc, List.cons_append]

/-- The last call of `ebbchar_exit` is the only one at which it returns. -/
theorem returnsDrained_of_last {handles : Handles} {module : Module}
    {front later : List UnloadEvent}
    (last : (unloadAfter handles module front).exiting = some [.freeIrq])
    (drained : (unloadAfter handles module front).workPending = false) :
    AtEveryStep (ReturnsDrained handles module)
      (front ++ .exit :: later) := by
  have returns : (unloadAfter handles module (front ++ [.exit])).Returned := by
    rw [unloadAfter, final_concat, ← unloadAfter, Unload.step,
      Unload.exitStep, last]
    rfl
  intro before event behind shape isExit isLast
  rcases List.append_eq_append_iff.mp shape with
    ⟨rest, isBefore, isRest⟩ | ⟨rest, isFront, isRest⟩
  · -- `before` reaches `front`: it is `front`, or the exit has returned
    cases rest with
    | nil =>
        rw [isBefore, List.append_nil]
        exact drained
    | cons first rest =>
        injection isRest with isFirst _
        rw [← isFirst] at isBefore
        have longer : before = (front ++ [.exit]) ++ rest := by
          rw [isBefore, List.append_assoc, List.singleton_append]
        have returned := returned_append returns rest
        rw [← longer, Unload.Returned, isLast] at returned
        cases returned
  · -- `before` ends in front of `front`, which has not returned
    cases rest with
    | nil =>
        rw [List.append_nil] at isFront
        rw [← isFront]
        exact drained
    | cons first rest =>
        injection isRest with isFirst _
        have returned :
            (unloadAfter handles module (before ++ [event])).Returned := by
          rw [unloadAfter, final_concat, ← unloadAfter, isExit, Unload.step,
            Unload.exitStep, isLast]
          rfl
        have stays := returned_append returned rest
        have same : before ++ [event] ++ rest = front := by
          rw [isFront, isFirst, List.append_assoc, List.singleton_append]
        rw [same, Unload.Returned, last] at stays
        cases stays

/-- If `ebbchar_exit` returns only with nothing queued, `workQueueFunc` is
never started behind its return.  Where it returns with an item queued, a
continuation of the run does start it. -/
theorem workQueueFunc_not_started_after_exit_iff (handles : Handles)
    (module : Module) (front : List UnloadEvent) :
    (AtEveryStep (ReturnsDrained handles module) front →
        NeverStartedBehindReturn handles module front) ∧
      ((unloadAfter handles module front).exiting = some [.freeIrq] →
        ((∀ later, NeverStartedBehindReturn handles module
            (front ++ .exit :: later)) ↔
          (unloadAfter handles module front).workPending = false)) := by
  refine ⟨neverStarted_of_drained, ?_⟩
  intro last
  constructor
  · intro never
    by_contra pending
    rw [Bool.not_eq_false] at pending
    have after : unloadAfter handles module (front ++ [.exit]) =
        (unloadAfter handles module front).exitStep :=
      final_concat front .exit
    rw [Unload.exitStep, last] at after
    have shape : front ++ [.exit, .work] =
        (front ++ [.exit]) ++ .work :: [] := by
      rw [List.append_assoc, List.singleton_append]
    have starts := never [.work] (front ++ [.exit]) .work [] shape
    rw [StartsWhileLoaded, after] at starts
    refine starts ?_ rfl
    rw [Unload.step, if_pos pending]
    rfl
  · intro drained later
    exact neverStarted_of_drained (returnsDrained_of_last last drained)

/-- The button is pressed, the module is unloaded, and then the kernel runs
the item. -/
def pressThenUnload : List UnloadEvent :=
  [.interrupt, .exit, .exit, .exit, .exit, .exit, .exit, .exit, .work]

/-- A module loaded at boot. -/
def bootModule : Module :=
  (ebbcharInit (Module.initial 0 ⟨0, 0, 0, 0⟩)
    { registerChrdev := 240, classCreate := 0, deviceCreate := 0,
      requestIrq := 0 }).1

def bootHandles : Handles where
  majorNumber := ⟨.chrdev, 0⟩
  ebbcharClass := ⟨.deviceClass, 1⟩
  ebbcharDevice := ⟨.device, 2⟩
  irqLine := ⟨.irq, 3⟩

/-- The work function is started behind the return of `ebbchar_exit`. -/
theorem pressThenUnload_starts_work :
    bootModule.loaded = some bootHandles ∧
      (unloadAfter bootHandles bootModule
        (pressThenUnload.take 8)).Returned ∧
      ¬ ∀ handles module history,
        NeverStartedBehindReturn handles module history := by
  refine ⟨rfl, rfl, ?_⟩
  intro never
  have starts := never bootHandles bootModule pressThenUnload
    (pressThenUnload.take 8) .work [] rfl
  exact starts rfl rfl

/-- Both parts at a press whose work is run before the unload. -/
theorem workQueueFunc_not_started_after_exit_iff_drained :
    NeverStartedBehindReturn bootHandles bootModule
        [.interrupt, .work, .exit, .exit, .exit, .exit, .exit, .exit] ∧
      ∀ later, NeverStartedBehindReturn bootHandles bootModule
        ([.interrupt, .work, .exit, .exit, .exit, .exit, .exit, .exit] ++
          .exit :: later) := by
  have parts := workQueueFunc_not_started_after_exit_iff bootHandles
    bootModule [.interrupt, .work, .exit, .exit, .exit, .exit, .exit, .exit]
  have forever := (parts.2 rfl).mpr rfl
  refine ⟨?_, forever⟩
  intro front event behind shape
  apply forever [] front event (behind ++ [.exit])
  rw [shape, List.append_assoc, List.cons_append]

end Esp32Source.Ebbchar
