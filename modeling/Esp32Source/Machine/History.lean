import Mathlib.Data.List.Induction

/-!
# Histories and runs

A machine handles one event after another.  `after` is the state a checked
machine reaches by a history of events, or the fault that ended it;
`latest observe` is the last observation that a history contains.

The results relate the two: `after_induction` carries a relation between the
history and the state through a whole run, and `latest_concat` is how such a
relation speaks about the event that was handled last.
-/

namespace Esp32Source.Machine

universe u v w x

/-! ## The latest observation of a history -/

section Latest

variable {Event : Type u} {α : Type v}

/-- The last observation in a history, the oldest event first. -/
def latest (observe : Event → Option α) (history : List Event) : Option α :=
  history.reverse.findSome? observe

@[simp]
theorem latest_nil (observe : Event → Option α) : latest observe [] = none :=
  rfl

@[simp]
theorem latest_concat
    (observe : Event → Option α) (history : List Event) (event : Event) :
    latest observe (history ++ [event]) =
      (observe event).or (latest observe history) := by
  unfold latest
  rw [List.reverse_append, List.reverse_singleton, List.singleton_append,
    List.findSome?_cons]
  cases observe event <;> rfl

theorem latest_concat_of_some
    {observe : Event → Option α} {event : Event} {value : α}
    (observed : observe event = some value) (history : List Event) :
    latest observe (history ++ [event]) = some value := by
  rw [latest_concat, observed, Option.some_or]

theorem latest_concat_of_none
    {observe : Event → Option α} {event : Event}
    (unobserved : observe event = none) (history : List Event) :
    latest observe (history ++ [event]) = latest observe history := by
  rw [latest_concat, unobserved, Option.none_or]

theorem latest_append
    (observe : Event → Option α) (front behind : List Event) :
    latest observe (front ++ behind) =
      (latest observe behind).or (latest observe front) := by
  rw [latest, List.reverse_append, List.findSome?_append]
  rfl

theorem latest_eq_none_iff
    {observe : Event → Option α} {history : List Event} :
    latest observe history = none ↔
      ∀ event, event ∈ history → observe event = none := by
  unfold latest
  simp [List.findSome?_eq_none_iff]

/-- The latest observation is that of an event behind which nothing is
observed. -/
theorem latest_eq_some_iff
    {observe : Event → Option α} {history : List Event} {value : α} :
    latest observe history = some value ↔
      ∃ before event behind,
        history = before ++ event :: behind ∧
          observe event = some value ∧
          ∀ later, later ∈ behind → observe later = none := by
  constructor
  · induction history using List.reverseRecOn with
    | nil =>
        intro equality
        cases equality
    | append_singleton history event inductionHypothesis =>
        intro equality
        cases observed : observe event with
        | some head =>
            rw [latest_concat_of_some observed] at equality
            cases equality
            exact ⟨history, event, [], rfl, observed, by simp⟩
        | none =>
            rw [latest_concat_of_none observed] at equality
            obtain ⟨before, chosen, behind, shape, chosenValue, quiet⟩ :=
              inductionHypothesis equality
            refine ⟨before, chosen, behind ++ [event], ?_, chosenValue, ?_⟩
            · rw [shape]
              simp
            · intro later member
              rcases List.mem_append.mp member with inBehind | atEnd
              · exact quiet later inBehind
              · rw [List.mem_singleton.mp atEnd]
                exact observed
  · rintro ⟨before, event, behind, rfl, observed, quiet⟩
    unfold latest
    have behindQuiet : behind.reverse.findSome? observe = none := by
      rw [List.findSome?_eq_none_iff]
      intro later member
      exact quiet later (List.mem_reverse.mp member)
    rw [List.reverse_append, List.reverse_cons, List.append_assoc,
      List.findSome?_append, behindQuiet, Option.none_or,
      List.singleton_append, List.findSome?_cons, observed]

end Latest

/-! ## Every state and every step of a history -/

section Everywhere

variable {Event : Type u}

/-- `holds` is true of the history and of everything in front of it. -/
def AtEveryState (holds : List Event → Prop) (history : List Event) : Prop :=
  ∀ front, front <+: history → holds front

/-- `holds` is true of every event of the history, given with the events in
front of it. -/
def AtEveryStep (holds : List Event → Event → Prop)
    (history : List Event) : Prop :=
  ∀ front event behind,
    history = front ++ event :: behind → holds front event

theorem AtEveryState.last {holds : List Event → Prop} {history : List Event}
    (everywhere : AtEveryState holds history) : holds history :=
  everywhere history List.prefix_rfl

theorem atEveryState_nil_iff {holds : List Event → Prop} :
    AtEveryState holds [] ↔ holds [] := by
  simp [AtEveryState, List.prefix_nil]

theorem atEveryState_concat_iff
    {holds : List Event → Prop} {history : List Event} {event : Event} :
    AtEveryState holds (history ++ [event]) ↔
      AtEveryState holds history ∧ holds (history ++ [event]) := by
  simp only [AtEveryState, List.prefix_concat_iff]
  constructor
  · intro everywhere
    exact ⟨fun front isFront => everywhere front (Or.inr isFront),
      everywhere (history ++ [event]) (Or.inl rfl)⟩
  · intro parts front isFront
    rcases isFront with whole | isFront
    · rw [whole]
      exact parts.2
    · exact parts.1 front isFront

theorem atEveryStep_nil (holds : List Event → Event → Prop) :
    AtEveryStep holds [] := by
  intro front event behind shape
  simp at shape

/-- An event of a history that was extended by one event is the new one, or
stands in the old history. -/
theorem concat_eq_append_cons_iff
    {history front behind : List Event} {event chosen : Event} :
    history ++ [event] = front ++ chosen :: behind ↔
      (behind = [] ∧ history = front ∧ event = chosen) ∨
        ∃ rest, behind = rest ++ [event] ∧
          history = front ++ chosen :: rest := by
  constructor
  · intro shape
    rcases List.eq_nil_or_concat behind with isEmpty | ⟨rest, last, isConcat⟩
    · subst isEmpty
      obtain ⟨sameFront, sameEvent⟩ := List.append_inj' shape rfl
      exact Or.inl ⟨rfl, sameFront, List.singleton_inj.mp sameEvent⟩
    · subst isConcat
      rw [List.concat_eq_append, ← List.cons_append,
        ← List.append_assoc] at shape
      obtain ⟨sameHistory, sameLast⟩ := List.append_inj' shape rfl
      refine Or.inr ⟨rest, ?_, sameHistory⟩
      rw [List.concat_eq_append, sameLast]
  · intro cases_
    rcases cases_ with ⟨rfl, rfl, rfl⟩ | ⟨rest, rfl, rfl⟩
    · rfl
    · simp

theorem atEveryStep_concat_iff
    {holds : List Event → Event → Prop}
    {history : List Event} {event : Event} :
    AtEveryStep holds (history ++ [event]) ↔
      AtEveryStep holds history ∧ holds history event := by
  constructor
  · intro everywhere
    refine ⟨?_, everywhere history event [] rfl⟩
    intro front chosen behind shape
    exact everywhere front chosen (behind ++ [event]) (by simp [shape])
  · intro parts front chosen behind shape
    rcases concat_eq_append_cons_iff.mp shape with
      ⟨_, sameFront, sameEvent⟩ | ⟨rest, _, sameHistory⟩
    · rw [← sameFront, ← sameEvent]
      exact parts.2
    · exact parts.1 front chosen rest sameHistory

theorem atEveryStep_cons_iff
    {holds : List Event → Event → Prop}
    {history : List Event} {event : Event} :
    AtEveryStep holds (event :: history) ↔
      holds [] event ∧
        AtEveryStep (fun front => holds (event :: front)) history := by
  constructor
  · intro everywhere
    refine ⟨everywhere [] event history rfl, ?_⟩
    intro front chosen behind shape
    apply everywhere (event :: front) chosen behind
    rw [shape, List.cons_append]
  · intro parts front chosen behind shape
    cases front with
    | nil =>
        injection shape with sameEvent _
        rw [← sameEvent]
        exact parts.1
    | cons head tail =>
        injection shape with sameHead sameTail
        rw [← sameHead]
        exact parts.2 tail chosen behind sameTail

theorem atEveryStep_congr
    {holds keeps : List Event → Event → Prop} {history : List Event}
    (same : ∀ front event behind, history = front ++ event :: behind →
      (holds front event ↔ keeps front event)) :
    AtEveryStep holds history ↔ AtEveryStep keeps history := by
  constructor
  · intro everywhere front event behind shape
    exact (same front event behind shape).mp
      (everywhere front event behind shape)
  · intro everywhere front event behind shape
    exact (same front event behind shape).mpr
      (everywhere front event behind shape)

theorem atEveryStep_and_iff
    {holds keeps : List Event → Event → Prop} {history : List Event} :
    AtEveryStep (fun front event => holds front event ∧ keeps front event)
        history ↔
      AtEveryStep holds history ∧ AtEveryStep keeps history := by
  constructor
  · intro both
    exact ⟨fun front event behind shape => (both front event behind shape).1,
      fun front event behind shape => (both front event behind shape).2⟩
  · intro both front event behind shape
    exact ⟨both.1 front event behind shape, both.2 front event behind shape⟩

/-- What follows from a condition on the steps of a run holds in every state
of a run whose steps all meet it. -/
theorem AtEveryStep.atEveryState
    {holds : List Event → Prop} {keeps : List Event → Event → Prop}
    {history : List Event} (everywhere : AtEveryStep keeps history)
    (follows : ∀ front, AtEveryStep keeps front → holds front) :
    AtEveryState holds history := by
  intro front isFront
  obtain ⟨rest, whole⟩ := isFront
  apply follows
  intro earlier event behind shape
  apply everywhere earlier event (behind ++ rest)
  rw [← whole, shape, List.append_assoc, List.cons_append]

/-- When `holds` is carried over one more event exactly if `keeps` is true of
that event, it is true of every state of a history exactly if `keeps` is true
of every step. -/
theorem atEveryState_iff_atEveryStep
    {holds : List Event → Prop} {keeps : List Event → Event → Prop}
    (allowed : Event → Prop) (initial : holds [])
    (carried :
      ∀ history event,
        (∀ earlier, earlier ∈ history → allowed earlier) →
        allowed event →
        AtEveryState holds history →
        (holds (history ++ [event]) ↔ keeps history event))
    {history : List Event}
    (admissible : ∀ event, event ∈ history → allowed event) :
    AtEveryState holds history ↔ AtEveryStep keeps history := by
  induction history using List.reverseRecOn with
  | nil =>
      exact iff_of_true (atEveryState_nil_iff.mpr initial)
        (atEveryStep_nil keeps)
  | append_singleton history event inductionHypothesis =>
      have earlierAllowed :
          ∀ earlier, earlier ∈ history → allowed earlier :=
        fun earlier member =>
          admissible earlier (List.mem_append_left [event] member)
      have earlierIff := inductionHypothesis earlierAllowed
      rw [atEveryState_concat_iff, atEveryStep_concat_iff, ← earlierIff]
      exact and_congr_right fun everywhere =>
        carried history event earlierAllowed
          (admissible event (by simp)) everywhere

end Everywhere

/-! ## Runs of a total machine -/

section Total

variable {State : Type u} {Event : Type v} {Output : Type w}
  {handle : State → Event → State × Output} {start : State}

/-- The state that a history of events leads to. -/
def final (handle : State → Event → State × Output) (start : State)
    (history : List Event) : State :=
  history.foldl (fun state event => (handle state event).1) start

theorem final_concat (history : List Event) (event : Event) :
    final handle start (history ++ [event]) =
      (handle (final handle start history) event).1 := by
  rw [final, List.foldl_append]
  rfl

/-- A relation between history and state that holds at the start and that
every event keeps holds after every history. -/
theorem final_induction {motive : List Event → State → Prop}
    (initial : motive [] start)
    (keeps :
      ∀ history state event,
        motive history state →
          motive (history ++ [event]) (handle state event).1)
    (history : List Event) :
    motive history (final handle start history) := by
  induction history using List.reverseRecOn with
  | nil =>
      exact initial
  | append_singleton history event inductionHypothesis =>
      rw [final_concat]
      exact keeps history _ event inductionHypothesis

end Total

/-! ## Runs of a checked machine -/

/-- A sequence of two computations succeeds exactly when both do. -/
theorem bind_eq_ok_iff {Fault : Type u} {α β : Type v}
    {first : Except Fault α} {second : α → Except Fault β} {result : β} :
    (first >>= second) = .ok result ↔
      ∃ middle, first = .ok middle ∧ second middle = .ok result := by
  cases first with
  | error fault =>
      simp [bind, Except.bind]
  | ok middle =>
      simp [bind, Except.bind]

theorem map_eq_ok_iff {Fault : Type u} {α β : Type v}
    {change : α → β} {computed : Except Fault α} {result : β} :
    computed.map change = .ok result ↔
      ∃ value, computed = .ok value ∧ change value = result := by
  cases computed with
  | error fault =>
      simp [Except.map]
  | ok value =>
      simp [Except.map]

theorem map_eq_error_iff {Fault : Type u} {α β : Type v}
    {change : α → β} {computed : Except Fault α} {fault : Fault} :
    computed.map change = .error fault ↔ computed = .error fault := by
  cases computed with
  | error earlier =>
      simp [Except.map]
  | ok value =>
      simp [Except.map]

section Checked

variable {State : Type u} {Event : Type v} {Output : Type w}
  {Fault : Type x}
  {step : State → Event → Except Fault (State × Output)} {start : State}

/-- The state that a history of events leads to, or the fault that ends
it. -/
def after (step : State → Event → Except Fault (State × Output))
    (start : State) (history : List Event) : Except Fault State :=
  history.foldlM (fun state event => (step state event).map Prod.fst) start

@[simp]
theorem after_nil : after step start [] = .ok start :=
  rfl

theorem after_append (front back : List Event) :
    after step start (front ++ back) =
      (after step start front).bind fun middle => after step middle back := by
  unfold after
  rw [List.foldlM_append]
  rfl

theorem after_append_eq_ok_iff {front back : List Event} {final : State} :
    after step start (front ++ back) = .ok final ↔
      ∃ middle,
        after step start front = .ok middle ∧
          after step middle back = .ok final := by
  rw [after_append]
  exact bind_eq_ok_iff

theorem after_singleton (event : Event) :
    after step start [event] = (step start event).map Prod.fst := by
  unfold after
  rw [List.foldlM_cons]
  cases step start event <;> rfl

/-- A run goes on exactly when its last event is handled without a fault. -/
theorem after_concat_eq_ok_iff
    {history : List Event} {event : Event} {final : State} :
    after step start (history ++ [event]) = .ok final ↔
      ∃ state output,
        after step start history = .ok state ∧
          step state event = .ok (final, output) := by
  rw [after_append]
  cases reached : after step start history with
  | error fault =>
      simp [Except.bind]
  | ok state =>
      simp only [Except.bind, after_singleton, Except.ok.injEq,
        exists_eq_left', exists_and_left]
      cases handled : step state event with
      | error fault =>
          simp [Except.map]
      | ok result =>
          obtain ⟨next, output⟩ := result
          simp [Except.map]

theorem after_concat_of_ok
    {history : List Event} {event : Event} {state final : State}
    {output : Output}
    (reached : after step start history = .ok state)
    (handled : step state event = .ok (final, output)) :
    after step start (history ++ [event]) = .ok final :=
  after_concat_eq_ok_iff.mpr ⟨state, output, reached, handled⟩

theorem after_cons_of_ok
    {event : Event} {history : List Event} {middle final : State}
    {output : Output}
    (handled : step start event = .ok (middle, output))
    (reached : after step middle history = .ok final) :
    after step start (event :: history) = .ok final := by
  rw [after, List.foldlM_cons, handled]
  exact reached

theorem after_cons_of_error {event : Event} {history : List Event}
    {fault : Fault} (faults : step start event = .error fault) :
    after step start (event :: history) = .error fault := by
  rw [after, List.foldlM_cons, faults]
  rfl

/-- Events that leave every state as it is can be taken out of a history. -/
theorem after_filter (keep : Event → Bool) {history : List Event}
    (idle : ∀ event, event ∈ history → keep event = false →
      ∀ state, ∃ output, step state event = .ok (state, output)) :
    after step start (history.filter keep) = after step start history := by
  induction history using List.reverseRecOn with
  | nil =>
      rfl
  | append_singleton history event inductionHypothesis =>
      rw [List.forall_mem_append, List.forall_mem_singleton] at idle
      rw [List.filter_append, after_append, after_append,
        inductionHypothesis idle.1]
      congr 1
      funext state
      cases kept : keep event with
      | true =>
          rw [List.filter_cons_of_pos kept, List.filter_nil]
      | false =>
          obtain ⟨output, stays⟩ := idle.2 kept state
          rw [List.filter_cons_of_neg (by rw [kept]; exact Bool.false_ne_true),
            List.filter_nil, after_singleton, stays]
          rfl

/-- A relation between history and state that holds at the start and that
every handled event keeps holds in every state reached. -/
theorem after_induction {motive : List Event → State → Prop}
    (initial : motive [] start)
    (keeps :
      ∀ history event state next output,
        after step start history = .ok state →
        motive history state →
        step state event = .ok (next, output) →
        motive (history ++ [event]) next) :
    ∀ {history : List Event} {final : State},
      after step start history = .ok final → motive history final := by
  intro history
  induction history using List.reverseRecOn with
  | nil =>
      intro final reached
      cases reached
      exact initial
  | append_singleton history event inductionHypothesis =>
      intro final reached
      obtain ⟨state, output, front, handled⟩ :=
        after_concat_eq_ok_iff.mp reached
      exact keeps history event state final output front
        (inductionHypothesis front) handled

/-- A history whose steps satisfy `keeps` runs without a fault and ends in a
related state, when every such step is handled and keeps the relation. -/
theorem after_total_of_steps
    (motive : List Event → State → Prop) (keeps : List Event → Event → Prop)
    (initial : motive [] start)
    (handles :
      ∀ history event state,
        after step start history = .ok state →
        motive history state → keeps history event →
        ∃ next output,
          step state event = .ok (next, output) ∧
            motive (history ++ [event]) next)
    {history : List Event} (everywhere : AtEveryStep keeps history) :
    ∃ final, after step start history = .ok final ∧ motive history final := by
  induction history using List.reverseRecOn with
  | nil =>
      exact ⟨start, rfl, initial⟩
  | append_singleton history event inductionHypothesis =>
      rw [atEveryStep_concat_iff] at everywhere
      obtain ⟨state, reached, related⟩ := inductionHypothesis everywhere.1
      obtain ⟨next, output, handled, relatedNext⟩ :=
        handles history event state reached related everywhere.2
      exact ⟨next, after_concat_of_ok reached handled, relatedNext⟩

/-- Where every other allowed step ends the run with one fault, a history runs
exactly when all its steps satisfy `keeps`. -/
theorem after_stops (motive : List Event → State → Prop)
    (allowed keeps : List Event → Event → Prop) {fault : Fault}
    (initial : motive [] start)
    (handles :
      ∀ history event state,
        after step start history = .ok state →
        motive history state → allowed history event →
        keeps history event →
        ∃ next output,
          step state event = .ok (next, output) ∧
            motive (history ++ [event]) next)
    (stops :
      ∀ history event state,
        after step start history = .ok state →
        motive history state → allowed history event →
        ¬ keeps history event →
        step state event = .error fault)
    {history : List Event} (everywhere : AtEveryStep allowed history) :
    (AtEveryStep keeps history →
      ∃ final, after step start history = .ok final ∧
        motive history final) ∧
      (¬ AtEveryStep keeps history →
        after step start history = .error fault) := by
  induction history using List.reverseRecOn with
  | nil =>
      exact ⟨fun _ => ⟨start, rfl, initial⟩,
        fun violated => absurd (atEveryStep_nil keeps) violated⟩
  | append_singleton history event inductionHypothesis =>
      rw [atEveryStep_concat_iff] at everywhere ⊢
      obtain ⟨runs, ends⟩ := inductionHypothesis everywhere.1
      constructor
      · rintro ⟨keepsFront, keepsLast⟩
        obtain ⟨state, reached, related⟩ := runs keepsFront
        obtain ⟨next, output, handled, relatedNext⟩ :=
          handles history event state reached related everywhere.2 keepsLast
        exact ⟨next, after_concat_of_ok reached handled, relatedNext⟩
      · intro violated
        rw [after_append]
        by_cases keepsFront : AtEveryStep keeps history
        · obtain ⟨state, reached, related⟩ := runs keepsFront
          rw [reached, Except.bind, after_singleton,
            stops history event state reached related everywhere.2
              fun keepsLast => violated ⟨keepsFront, keepsLast⟩]
          rfl
        · rw [ends keepsFront]
          rfl

/-- The same for a condition on single events. -/
theorem after_total
    (motive : List Event → State → Prop) (allowed : Event → Prop)
    (initial : motive [] start)
    (handles :
      ∀ history event state,
        motive history state → allowed event →
        ∃ next output,
          step state event = .ok (next, output) ∧
            motive (history ++ [event]) next)
    {history : List Event}
    (admissible : ∀ event, event ∈ history → allowed event) :
    ∃ final, after step start history = .ok final ∧ motive history final := by
  have everywhere : AtEveryStep (fun _ event => allowed event) history := by
    intro front event behind shape
    apply admissible
    rw [shape]
    simp
  exact after_total_of_steps motive _ initial
    (fun history event state _ related allows =>
      handles history event state related allows) everywhere

/-- A checked machine whose every step does what a step of another machine
does, output included, never faults and follows that machine through every
history. -/
theorem after_simulates {Abstract : Type*}
    {handle : Abstract → Event → Abstract × Output} {abstract : Abstract}
    (refines : State → Abstract → Prop) (initial : refines start abstract)
    (simulates :
      ∀ state model event, refines state model →
        ∃ next,
          step state event = .ok (next, (handle model event).2) ∧
            refines next (handle model event).1)
    (history : List Event) :
    ∃ reached, after step start history = .ok reached ∧
      refines reached (final handle abstract history) := by
  have everywhere : AtEveryStep (fun _ _ => True) history :=
    fun _ _ _ _ => trivial
  refine after_total_of_steps
    (fun history state => refines state (final handle abstract history))
    _ initial ?_ everywhere
  intro history event state _ related _
  obtain ⟨next, stepped, relatedNext⟩ :=
    simulates state (final handle abstract history) event related
  refine ⟨next, _, stepped, ?_⟩
  rw [final_concat]
  exact relatedNext

/-- Where runs are short, and every state that is not final can be left, some
run leads to a final state. -/
theorem exists_after_final {isFinal : State → Prop} {bound : Nat}
    (short : ∀ history state, after step start history = .ok state →
      history.length ≤ bound)
    (goesOn : ∀ history state, after step start history = .ok state →
      ¬ isFinal state →
      ∃ event next output, step state event = .ok (next, output)) :
    ∃ history state,
      after step start history = .ok state ∧ isFinal state := by
  by_contra noFinal
  push Not at noFinal
  have goesOnFor : ∀ count, ∃ history state,
      after step start history = .ok state ∧ history.length = count := by
    intro count
    induction count with
    | zero =>
        exact ⟨[], start, rfl, rfl⟩
    | succ count inductionHypothesis =>
        obtain ⟨history, state, reached, length⟩ := inductionHypothesis
        obtain ⟨event, next, output, isStep⟩ :=
          goesOn history state reached (noFinal history state reached)
        refine ⟨history ++ [event], next,
          after_concat_of_ok reached isStep, ?_⟩
        rw [List.length_append, List.length_singleton, length]
  obtain ⟨history, state, reached, length⟩ := goesOnFor (bound + 1)
  have isShort := short history state reached
  omega

end Checked

end Esp32Source.Machine
