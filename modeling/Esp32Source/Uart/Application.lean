import Esp32Source.Uart.ReceiveQueue

/-!
# The receiving application

The loop of `app_main` sleeps, asks `sw_any` for the number of unread bytes and
calls `sw_read` that many times, printing each result.  The interrupt handler
runs between any two of its steps, also between the steps of `sw_read`.

The task is the only one that takes bytes out of the ring.  So there are at
least as many unread bytes as there are calls left, and each of them prints the
oldest one, never the -1 of an empty ring: a pass of the loop prints what was
unread when it began, whatever arrives meanwhile.
-/

namespace Esp32Source.Uart

open Memory Machine

/-- Where the task stands: in front of `sw_any`, or in the loop with a number
of calls of `sw_read` left. -/
inductive AppPlace where
  | checking
  | reading (left : Nat)
  deriving DecidableEq, Repr

structure App where
  port : Port
  place : AppPlace
  printed : List Int

/-- A run of the interrupt handler, or a step of the task. -/
inductive AppEvent where
  | frame (frame : Frame)
  | task

/-- The next step of `sw_read`, which may be its first. -/
def PortEvent.readStep (port : Port) : PortEvent :=
  if port.reader = .idle then .call .read else .proceed

/-- A step of the task.  The line that it prints behind the loop, which leaves
the port as it is, is left out. -/
def App.task (app : App) : Except Fault App :=
  match app.place with
  | .checking => do
      let (port, len) ← app.port.step (.call .any)
      match len with
      | some len =>
          if len > 0 then
            return { app with port, place := .reading len.toNat }
          else return { app with port }
      | none => return { app with port }
  | .reading 0 => .ok { app with place := .checking }
  | .reading (left + 1) => do
      let (port, result) ← app.port.step (PortEvent.readStep app.port)
      match result with
      | some value =>
          return { port, place := .reading left,
                   printed := app.printed ++ [value] }
      | none => return { app with port }

def App.step (app : App) : AppEvent → Except Fault (App × Unit)
  | .frame frame => do
      let (port, _) ← app.port.step (.frame frame)
      return ({ app with port }, ())
  | .task => do
      return (← app.task, ())

def appAfter (self : SwSerial) (history : List AppEvent) :
    Except Fault App :=
  after App.step
    { port := { self, reader := .idle }, place := .checking, printed := [] }
    history

/-- The byte that an event brings to the port. -/
def AppEvent.byte (invert : Bool) : AppEvent → Option UInt8
  | .frame sampled => sampled.byte invert
  | .task => none

def arrivedBytes (invert : Bool) (history : List AppEvent) : List UInt8 :=
  history.filterMap (AppEvent.byte invert)

/-- The next step of the task, wherever it stands: it counts the unread bytes,
and each of its calls of `sw_read` loads, takes and prints the oldest one. -/
structure PrintsOldest (app : App) (unread : List UInt8) : Prop where
  checks : app.place = .checking →
    app.task = .ok { app with
      place := if unread = [] then .checking else .reading unread.length }
  ends : app.place = .reading 0 →
    app.task = .ok { app with place := .checking }
  calls : ∀ left, app.place = .reading (left + 1) →
    app.port.reader = .idle →
      app.task = .ok { app with
        port := { app.port with reader := .loading } }
  loads : ∀ left, app.place = .reading (left + 1) →
    app.port.reader = .loading →
      ∃ byte rest, unread = byte :: rest ∧
        app.task = .ok { app with
          port := { app.port with reader := .updating byte } }
  prints : ∀ left byte, app.place = .reading (left + 1) →
    app.port.reader = .updating byte →
      ∃ rest next, unread = byte :: rest ∧ app.task = .ok next ∧
        next.port.reader = .idle ∧ next.place = .reading left ∧
        next.printed = app.printed ++ [(byte.toNat : Int)]

def AppEvent.isTask : AppEvent → Bool
  | .frame _ => false
  | .task => true

/-- A pass that begins here prints these bytes: behind `sw_any` each call of
`sw_read` takes three steps of the task, whatever frames come in between. -/
def PassPrints (self : SwSerial) (history : List AppEvent) (app : App)
    (unread : List UInt8) : Prop :=
  ∀ pass : List AppEvent,
    (pass.filter AppEvent.isTask).length = 3 * unread.length →
      ∃ next, appAfter self (history ++ .task :: pass) = .ok next ∧
        next.place = .reading 0 ∧
        next.printed =
          app.printed ++ unread.map (fun byte => (byte.toNat : Int))

/-- What was printed and what is unread are the arrived bytes in their order,
all of them unless the overflow flag is set.  The task goes on with the oldest
unread byte, and a pass prints all that are unread when it begins. -/
structure PrintsInOrder (invert : Bool) (self : SwSerial)
    (history : List AppEvent) (app : App) : Prop where
  inOrder : ∃ read unread : List UInt8,
    app.printed = read.map (fun byte => (byte.toNat : Int)) ∧
      swAny app.port.self = unread.length ∧
      (read ++ unread).Sublist (arrivedBytes invert history) ∧
      (swOverflow app.port.self = false →
        read ++ unread = arrivedBytes invert history) ∧
      PrintsOldest app unread ∧
      (app.place = .checking → unread ≠ [] →
        PassPrints self history app unread)

/-! ## The invariant -/

/-- The port is a queue from which was taken what was printed, and which holds
a byte for every call that is left. -/
structure Prints (buffSize : Nat) (invert : Bool) (arrived : List UInt8)
    (app : App) (model : ReceiveQueue) : Prop where
  follows : Follows buffSize invert app.port model
  printed : app.printed =
    model.fifo.taken.map (fun byte => (byte.toNat : Int))
  kept : model.fifo.accepted.Sublist arrived
  whole : model.fifo.dropped = false → model.fifo.accepted = arrived
  left : ∀ left, app.place = .reading left →
    left ≤ model.fifo.queue.length
  outside : app.place = .checking ∨ app.place = .reading 0 →
    model.phase = .idle

theorem arrivedBytes_concat (invert : Bool) (history : List AppEvent)
    (event : AppEvent) :
    arrivedBytes invert (history ++ [event]) =
      arrivedBytes invert history ++ (event.byte invert).toList := by
  rw [arrivedBytes, List.filterMap_append, arrivedBytes]
  cases brings : event.byte invert <;> simp [brings]

section Steps

variable {buffSize : Nat} {invert : Bool} {arrived : List UInt8} {app : App}
  {model : ReceiveQueue}

theorem Port.reader_of_step_frame {port next : Port} {frame : Frame}
    {output : Option Int}
    (stepped : port.step (.frame frame) = .ok (next, output)) :
    next.reader = port.reader := by
  rw [Port.step] at stepped
  obtain ⟨self, _, same⟩ := bind_eq_ok_iff.mp stepped
  cases same
  rfl

/-- What a frame brings is appended to the queue, or dropped for good; it
leaves the task where it is. -/
theorem Prints.frame (prints : Prints buffSize invert arrived app model)
    (frame : Frame) :
    ∃ next model',
      app.step (.frame frame) = .ok (next, ()) ∧
        Prints buffSize invert (arrived ++ (frame.byte invert).toList) next
          model' ∧
        next.place = app.place ∧ next.printed = app.printed ∧
        next.port.reader = app.port.reader ∧
        model.fifo.queue <+: model'.fifo.queue := by
  obtain ⟨port, stepped, follows⟩ := prints.follows.frame frame
  have sameReader := Port.reader_of_step_frame stepped
  refine ⟨{ app with port },
    (model.step (buffSize - 1) invert (.frame frame)).1, ?_, ?_⟩
  · rw [App.step, stepped]
    rfl
  rw [ReceiveQueue.step] at follows ⊢
  cases brings : frame.byte invert with
  | none =>
      rw [brings] at follows
      rw [Option.toList_none, List.append_nil]
      exact ⟨⟨follows, prints.printed, prints.kept, prints.whole,
        prints.left, prints.outside⟩, rfl, rfl, sameReader,
        List.prefix_rfl⟩
  | some byte =>
      rw [brings] at follows
      rw [Option.toList_some]
      dsimp only at follows ⊢
      by_cases full : model.fifo.queue.length = buffSize - 1
      · rw [Fifo.receive_full full] at follows ⊢
        refine ⟨⟨follows, prints.printed,
          prints.kept.trans (List.sublist_append_left _ _), ?_, prints.left,
          prints.outside⟩, rfl, rfl, sameReader, List.prefix_rfl⟩
        intro notDropped
        cases notDropped
      · obtain ⟨queue, dropped⟩ := Fifo.queue_receive full byte
        obtain ⟨accepted, taken⟩ := Fifo.accepted_receive full byte
        refine ⟨⟨follows, ?_, ?_, ?_, ?_, prints.outside⟩, rfl, rfl,
          sameReader, ?_⟩
        · rw [taken]
          exact prints.printed
        · rw [accepted]
          exact prints.kept.append (List.Sublist.refl _)
        · rw [accepted, dropped]
          intro notDropped
          rw [prints.whole notDropped]
        · intro left isReading
          have atLeast := prints.left left isReading
          rw [queue, List.length_append]
          omega
        · rw [queue]
          exact List.prefix_append _ _

/-- `sw_any` leaves the queue and returns its length, -/
theorem Prints.checks (prints : Prints buffSize invert arrived app model)
    (isChecking : app.place = .checking) :
    app.task = .ok { app with
        place := if model.fifo.queue = [] then .checking
          else .reading model.fifo.queue.length } ∧
      Prints buffSize invert arrived
        { app with
          place := if model.fifo.queue = [] then .checking
            else .reading model.fifo.queue.length }
        model := by
  have idle := prints.outside (Or.inl isChecking)
  have readerIdle := prints.follows.reader.idle_iff.mpr idle
  have counts := prints.follows.holds.swAny_eq prints.follows.sized
  have stepped : app.port.step (.call .any) =
      .ok (app.port, some (model.fifo.queue.length : Int)) := by
    rw [Port.step, if_pos readerIdle, Port.call, counts]
  constructor
  · rw [App.task, isChecking]
    dsimp only
    rw [stepped]
    simp only [bind, Except.bind]
    by_cases isEmpty : model.fifo.queue = []
    · rw [isEmpty, if_pos rfl, ← isChecking]
      rfl
    · have positive := List.length_pos_iff.mpr isEmpty
      rw [if_pos (by omega), if_neg isEmpty, Int.toNat_natCast]
      rfl
  · refine ⟨prints.follows, prints.printed, prints.kept, prints.whole, ?_,
      fun _ => idle⟩
    intro left isReading
    dsimp only at isReading
    by_cases isEmpty : model.fifo.queue = []
    · rw [if_pos isEmpty] at isReading
      cases isReading
    · rw [if_neg isEmpty] at isReading
      cases isReading
      exact Nat.le_refl _

/-- behind the last call the task comes back to it, -/
theorem Prints.ends (prints : Prints buffSize invert arrived app model)
    (isEnd : app.place = .reading 0) :
    app.task = .ok { app with place := .checking } ∧
      Prints buffSize invert arrived { app with place := .checking }
        model := by
  constructor
  · rw [App.task, isEnd]
  · refine ⟨prints.follows, prints.printed, prints.kept, prints.whole, ?_,
      fun _ => prints.outside (Or.inr isEnd)⟩
    intro left isReading
    cases isReading

/-- A call of `sw_read` finds a byte, -/
theorem Prints.nonempty
    (prints : Prints buffSize invert arrived app model) {left : Nat}
    (isReading : app.place = .reading (left + 1)) :
    model.fifo.queue ≠ [] := by
  have atLeast := prints.left (left + 1) isReading
  intro isEmpty
  rw [isEmpty] at atLeast
  cases atLeast

/-- while the task stays in it, -/
theorem Prints.stays (prints : Prints buffSize invert arrived app model)
    {left : Nat} (isReading : app.place = .reading (left + 1))
    {port : Port} {phase : Phase}
    (follows : Follows buffSize invert port { model with phase }) :
    Prints buffSize invert arrived { app with port }
      { model with phase } := by
  refine ⟨follows, prints.printed, prints.kept, prints.whole, prints.left,
    ?_⟩
  dsimp only
  rw [isReading]
  simp

/-- makes a first step, -/
theorem Prints.calls (prints : Prints buffSize invert arrived app model)
    {left : Nat} (isReading : app.place = .reading (left + 1))
    (idle : app.port.reader = .idle) :
    app.task = .ok { app with
        port := { app.port with reader := .loading } } ∧
      Prints buffSize invert arrived
        { app with port := { app.port with reader := .loading } }
        { model with phase := .loading } := by
  have nonempty := prints.nonempty isReading
  constructor
  · rw [App.task, isReading]
    dsimp only
    rw [PortEvent.readStep, if_pos idle, Port.step, if_pos idle, Port.call,
      if_pos (mt prints.follows.holds.inPos_eq_iff.mp nonempty)]
    rfl
  · exact prints.stays isReading
      ⟨prints.follows.sized, prints.follows.holds, nonempty⟩

/-- loads the byte, -/
theorem Prints.loads (prints : Prints buffSize invert arrived app model)
    {left : Nat} (isReading : app.place = .reading (left + 1))
    (isLoading : app.port.reader = .loading) :
    ∃ byte rest, model.fifo.queue = byte :: rest ∧
      app.task = .ok { app with
        port := { app.port with reader := .updating byte } } ∧
      Prints buffSize invert arrived
        { app with port := { app.port with reader := .updating byte } }
        { model with phase := .updating } := by
  have nonempty := prints.nonempty isReading
  obtain ⟨byte, rest, queue⟩ := List.exists_cons_of_ne_nil nonempty
  refine ⟨byte, rest, queue, ?_, prints.stays isReading
    ⟨prints.follows.sized, prints.follows.holds, ?_⟩⟩
  · rw [App.task, isReading]
    dsimp only
    rw [PortEvent.readStep, isLoading, if_neg Reader.noConfusion, Port.step,
      Port.proceed, isLoading]
    dsimp only
    rw [loadByte, prints.follows.holds.ring.head queue]
    rfl
  · change model.fifo.queue.head? = some byte
    rw [queue, List.head?_cons]

/-- and takes and prints it. -/
theorem Prints.returns (prints : Prints buffSize invert arrived app model)
    {left : Nat} (isReading : app.place = .reading (left + 1))
    {byte : UInt8} (isUpdating : app.port.reader = .updating byte) :
    ∃ rest next, model.fifo.queue = byte :: rest ∧
      app.task = .ok next ∧ next.port.reader = .idle ∧
      next.place = .reading left ∧
      next.printed = app.printed ++ [(byte.toNat : Int)] ∧
      Prints buffSize invert arrived next
        { fifo := model.fifo.take.1, phase := .idle } := by
  have sized := prints.follows.sized
  obtain ⟨rest, queue⟩ : ∃ rest, model.fifo.queue = byte :: rest := by
    have reader := prints.follows.reader
    rw [isUpdating] at reader
    cases phase : model.phase with
    | idle | loading =>
        rw [phase] at reader
        exact reader.elim
    | updating =>
        rw [phase] at reader
        exact List.head?_eq_some_iff.mp reader
  obtain ⟨takenQueue, dropped, _⟩ := Fifo.queue_take queue
  obtain ⟨taken, accepted⟩ := Fifo.taken_take queue
  have holds := holds_of_take sized.ringed prints.follows.holds queue
  have printed : app.printed ++ [(byte.toNat : Int)] =
      model.fifo.take.1.taken.map (fun byte => (byte.toNat : Int)) := by
    rw [taken, List.map_append, List.map_singleton, prints.printed]
  refine ⟨rest,
    { port :=
        { self := { app.port.self with
            outPos := nextPosition app.port.self app.port.self.outPos },
          reader := .idle },
      place := .reading left,
      printed := app.printed ++ [(byte.toNat : Int)] },
    queue, ?_, rfl, rfl, rfl, ⟨⟨sized.size, sized.cells, sized.small,
      sized.inverts⟩, holds, trivial⟩, printed, ?_, ?_, ?_, fun _ => rfl⟩
  · rw [App.task, isReading]
    dsimp only
    rw [PortEvent.readStep, isUpdating, if_neg Reader.noConfusion,
      Port.step, Port.proceed, isUpdating]
    rfl
  · dsimp only
    rw [accepted]
    exact prints.kept
  · dsimp only
    rw [accepted, dropped]
    exact prints.whole
  · intro fewer isFewer
    cases isFewer
    have atLeast := prints.left (left + 1) isReading
    rw [queue, List.length_cons] at atLeast
    dsimp only
    rw [takenQueue]
    exact Nat.le_of_succ_le_succ atLeast

theorem Prints.task (prints : Prints buffSize invert arrived app model) :
    ∃ next model', app.task = .ok next ∧
      Prints buffSize invert arrived next model' := by
  cases place : app.place with
  | checking =>
      exact ⟨_, model, prints.checks place⟩
  | reading left =>
      cases left with
      | zero =>
          exact ⟨_, model, prints.ends place⟩
      | succ left =>
          cases reader : app.port.reader with
          | idle =>
              exact ⟨_, _, prints.calls place reader⟩
          | loading =>
              obtain ⟨_, _, _, loads⟩ := prints.loads place reader
              exact ⟨_, _, loads⟩
          | updating byte =>
              obtain ⟨_, next, _, returns, _, _, _, printsNext⟩ :=
                prints.returns place reader
              exact ⟨next, _, returns, printsNext⟩

/-- Every event keeps the invariant. -/
theorem Prints.step (prints : Prints buffSize invert arrived app model)
    (event : AppEvent) :
    ∃ next model', app.step event = .ok (next, ()) ∧
      Prints buffSize invert (arrived ++ (event.byte invert).toList) next
        model' := by
  cases event with
  | frame frame =>
      obtain ⟨next, model', stepped, printsNext, _⟩ := prints.frame frame
      exact ⟨next, model', stepped, printsNext⟩
  | task =>
      obtain ⟨next, model', stepped, printsNext⟩ := prints.task
      refine ⟨next, model', ?_, ?_⟩
      · rw [App.step, stepped]
        rfl
      · rw [AppEvent.byte, Option.toList_none, List.append_nil]
        exact printsNext

theorem Prints.printsOldest
    (prints : Prints buffSize invert arrived app model) :
    PrintsOldest app model.fifo.queue where
  checks isChecking := (prints.checks isChecking).1
  ends isEnd := (prints.ends isEnd).1
  calls _ isReading idle := (prints.calls isReading idle).1
  loads := by
    intro left isReading isLoading
    obtain ⟨byte, rest, queue, loads, _⟩ := prints.loads isReading isLoading
    exact ⟨byte, rest, queue, loads⟩
  prints := by
    intro left byte isReading isUpdating
    obtain ⟨rest, next, queue, returns, idle, place, printed, _⟩ :=
      prints.returns isReading isUpdating
    exact ⟨rest, next, queue, returns, idle, place, printed⟩

/-! ## A pass of the loop -/

/-- How many steps of the `sw_read` that it is in the task has made. -/
def Reader.stepsMade : Reader → Nat
  | .idle => 0
  | .loading => 1
  | .updating _ => 2

/-- The steps of the task up to the end of its loop. -/
def App.stepsLeft (app : App) : Nat :=
  match app.place with
  | .checking => 0
  | .reading left => 3 * left - app.port.reader.stepsMade

/-- The task is on its way to have printed `target`. -/
def Aims (app : App) (model : ReceiveQueue) (target : List Int) : Prop :=
  ∃ left, app.place = .reading left ∧
    app.printed ++ (model.fifo.queue.take left).map
      (fun byte => (byte.toNat : Int)) = target

theorem Prints.aims_frame
    (prints : Prints buffSize invert arrived app model) {target : List Int}
    (aims : Aims app model target) {next : App} {model' : ReceiveQueue}
    (samePlace : next.place = app.place)
    (samePrinted : next.printed = app.printed)
    (grows : model.fifo.queue <+: model'.fifo.queue) :
    Aims next model' target := by
  obtain ⟨left, isReading, isTarget⟩ := aims
  obtain ⟨rest, isQueue⟩ := grows
  refine ⟨left, samePlace.trans isReading, ?_⟩
  rw [samePrinted, ← isQueue,
    List.take_append_of_le_length (prints.left left isReading)]
  exact isTarget

/-- A step of the task brings it one step nearer. -/
theorem Prints.aims_task
    (prints : Prints buffSize invert arrived app model) {target : List Int}
    (aims : Aims app model target) {count : Nat}
    (notYet : app.stepsLeft = count + 1) :
    ∃ next model', app.task = .ok next ∧
      Prints buffSize invert arrived next model' ∧
      Aims next model' target ∧ next.stepsLeft = count := by
  obtain ⟨left, isReading, isTarget⟩ := aims
  rw [App.stepsLeft, isReading] at notYet
  dsimp only at notYet
  cases left with
  | zero =>
      omega
  | succ left =>
      cases reader : app.port.reader with
      | idle =>
          obtain ⟨calls, called⟩ := prints.calls isReading reader
          refine ⟨_, _, calls, called, ⟨_, isReading, isTarget⟩, ?_⟩
          simp only [reader, Reader.stepsMade] at notYet
          simp only [App.stepsLeft, isReading, Reader.stepsMade]
          omega
      | loading =>
          obtain ⟨byte, rest, _, loads, loaded⟩ :=
            prints.loads isReading reader
          refine ⟨_, _, loads, loaded, ⟨_, isReading, isTarget⟩, ?_⟩
          simp only [reader, Reader.stepsMade] at notYet
          simp only [App.stepsLeft, isReading, Reader.stepsMade]
          omega
      | updating byte =>
          obtain ⟨rest, next, queue, returns, idle, place, printed, later⟩ :=
            prints.returns isReading reader
          refine ⟨next, _, returns, later, ⟨left, place, ?_⟩, ?_⟩
          · dsimp only
            rw [printed, (Fifo.queue_take queue).1, ← isTarget, queue,
              List.take_succ_cons, List.map_cons, List.append_assoc,
              List.singleton_append]
          · simp only [reader, Reader.stepsMade] at notYet
            simp only [App.stepsLeft, place, idle, Reader.stepsMade]
            omega

/-- Whatever frames come in between, the task gets there. -/
theorem Prints.finishes
    (prints : Prints buffSize invert arrived app model) {target : List Int}
    (aims : Aims app model target) {pass : List AppEvent}
    (enough : (pass.filter AppEvent.isTask).length = app.stepsLeft) :
    ∃ next, after App.step app pass = .ok next ∧
      next.place = .reading 0 ∧ next.printed = target := by
  induction pass generalizing app model arrived with
  | nil =>
      obtain ⟨left, isReading, isTarget⟩ := aims
      have made : app.port.reader.stepsMade ≤ 2 := by
        cases app.port.reader <;> simp [Reader.stepsMade]
      rw [App.stepsLeft, isReading, List.filter_nil,
        List.length_nil] at enough
      dsimp only at enough
      have isEnd : left = 0 := by
        omega
      rw [isEnd] at isReading isTarget
      refine ⟨app, after_nil, isReading, ?_⟩
      rw [← isTarget, List.take_zero, List.map_nil, List.append_nil]
  | cons event pass inductionHypothesis =>
      cases event with
      | frame frame =>
          obtain ⟨next, model', stepped, printsNext, samePlace, samePrinted,
            sameReader, grows⟩ := prints.frame frame
          have aimsNext := prints.aims_frame aims samePlace samePrinted grows
          have sameLeft : next.stepsLeft = app.stepsLeft := by
            rw [App.stepsLeft, App.stepsLeft, samePlace, sameReader]
          rw [List.filter_cons_of_neg (by exact Bool.false_ne_true),
            ← sameLeft] at enough
          obtain ⟨last, finished, rest⟩ :=
            inductionHypothesis printsNext aimsNext enough
          exact ⟨last, after_cons_of_ok stepped finished, rest⟩
      | task =>
          rw [List.filter_cons_of_pos rfl, List.length_cons] at enough
          obtain ⟨next, model', stepped, printsNext, aimsNext, fewer⟩ :=
            prints.aims_task aims enough.symm
          obtain ⟨last, finished, rest⟩ :=
            inductionHypothesis printsNext aimsNext fewer.symm
          have isStep : app.step .task = .ok (next, ()) := by
            rw [App.step, stepped]
            rfl
          exact ⟨last, after_cons_of_ok isStep finished, rest⟩

end Steps

/-! ## Every interleaving -/

theorem Prints.inOrder {buffSize : Nat} {invert : Bool} {self : SwSerial}
    {history : List AppEvent} {app : App} {model : ReceiveQueue}
    (reached : appAfter self history = .ok app)
    (prints : Prints buffSize invert (arrivedBytes invert history) app
      model) :
    PrintsInOrder invert self history app := by
  have order := model.fifo.order
  refine ⟨model.fifo.taken, model.fifo.queue, prints.printed, ?_, ?_, ?_,
    prints.printsOldest, ?_⟩
  · exact prints.follows.holds.swAny_eq prints.follows.sized
  · rw [← order]
    exact prints.kept
  · intro noOverflow
    rw [swOverflow, prints.follows.holds.overflow] at noOverflow
    rw [← order]
    exact prints.whole noOverflow
  · intro isChecking nonempty pass enough
    obtain ⟨checks, checked⟩ := prints.checks isChecking
    rw [if_neg nonempty] at checks checked
    have idle := prints.follows.reader.idle_iff.mpr
      (prints.outside (Or.inl isChecking))
    have isStep : app.step .task =
        .ok ({ app with place := .reading model.fifo.queue.length }, ()) := by
      rw [App.step, checks]
      rfl
    have aims : Aims { app with place := .reading model.fifo.queue.length }
        model (app.printed ++
          model.fifo.queue.map (fun byte => (byte.toNat : Int))) :=
      ⟨_, rfl, by rw [List.take_length]⟩
    obtain ⟨last, finished, rest⟩ := checked.finishes aims (by
      rw [enough, App.stepsLeft, idle]
      rfl)
    exact ⟨last, after_append_eq_ok_iff.mpr
      ⟨app, reached, after_cons_of_ok isStep finished⟩, rest⟩

/-- A new port is an empty queue. -/
theorem follows_created {buffSize : BitVec 32}
    (positive : 1 ≤ buffSize.toNat) (small : buffSize.toNat < 2 ^ 31)
    {invert : Bool} {memory : Buffer buffSize.toNat} {self : SwSerial}
    (created : swNew invert buffSize true (some memory) = some self) :
    Follows buffSize.toNat invert { self, reader := .idle }
      ReceiveQueue.empty := by
  cases created
  have cells : memory.cells.length = buffSize.toNat := memory.length_cells
  refine ⟨⟨rfl, cells, small, rfl⟩, ⟨?_, rfl⟩, trivial⟩
  apply RingHolds.empty
  rw [cells]
  exact positive

/-- The invariant holds behind every interleaving. -/
theorem exists_prints {buffSize : BitVec 32}
    (positive : 1 ≤ buffSize.toNat) (small : buffSize.toNat < 2 ^ 31)
    {invert : Bool} {memory : Buffer buffSize.toNat} {self : SwSerial}
    (created : swNew invert buffSize true (some memory) = some self)
    (history : List AppEvent) :
    ∃ app model, appAfter self history = .ok app ∧
      Prints buffSize.toNat invert (arrivedBytes invert history) app
        model := by
  have initial : Prints buffSize.toNat invert []
      { port := { self, reader := .idle }, place := .checking, printed := [] }
      ReceiveQueue.empty :=
    { follows := follows_created positive small created
      printed := rfl
      kept := List.Sublist.refl []
      whole := fun _ => rfl
      left := fun left isReading => AppPlace.noConfusion isReading
      outside := fun _ => rfl }
  obtain ⟨app, reached, model, prints⟩ :
      ∃ app, appAfter self history = .ok app ∧ ∃ model,
        Prints buffSize.toNat invert (arrivedBytes invert history) app
          model := by
    refine after_total
      (fun front app => ∃ model,
        Prints buffSize.toNat invert (arrivedBytes invert front) app model)
      (fun _ => True) ⟨_, initial⟩ ?_ (fun _ _ => trivial)
    intro front event app ⟨model, prints⟩ _
    obtain ⟨next, model', stepped, printsNext⟩ := prints.step event
    rw [← arrivedBytes_concat] at printsNext
    exact ⟨next, (), stepped, model', printsNext⟩
  exact ⟨app, model, reached, prints⟩

/-- For every size of the ring and every interleaving of arriving frames with
the steps of the task, the bytes are printed in the order in which they
arrived, each of them once, and every pass of the loop prints what was unread
at its `sw_any`. -/
theorem appAfter_prints_in_order {buffSize : BitVec 32}
    (positive : 1 ≤ buffSize.toNat) (small : buffSize.toNat < 2 ^ 31)
    (invert : Bool) (memory : Buffer buffSize.toNat) {self : SwSerial}
    (created : swNew invert buffSize true (some memory) = some self)
    (history : List AppEvent) :
    ∃ app, appAfter self history = .ok app ∧
      PrintsInOrder invert self history app := by
  obtain ⟨app, model, reached, prints⟩ :=
    exists_prints positive small created history
  exact ⟨app, reached, prints.inOrder reached⟩

/-- A second byte arrives while the task reads the first one. -/
def busyHistory : List AppEvent :=
  [.frame { start := false, data := fun _ => true, stop := true }, .task,
    .task, .frame { start := false, data := fun _ => false, stop := true },
    .task, .task]

theorem appAfter_prints_in_order_busyHistory :
    ∃ app,
      appAfter
          { buffSize := 3, invert := false, overflow := false, inPos := 0,
            outPos := 0, buffer := [0, 0, 0] } busyHistory = .ok app ∧
        PrintsInOrder false
          { buffSize := 3, invert := false, overflow := false, inPos := 0,
            outPos := 0, buffer := [0, 0, 0] } busyHistory app :=
  @appAfter_prints_in_order 3 (by decide) (by decide) false (Buffer.zero 3) _
    rfl busyHistory

end Esp32Source.Uart
