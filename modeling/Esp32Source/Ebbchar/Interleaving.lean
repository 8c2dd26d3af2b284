import Esp32Source.Ebbchar.Led
import Esp32Source.Machine.Linearization

/-!
# A process and the work queue at the data register

A process writes to the device while the button's work runs.  `dev_write`
changes the register with one load and one store, `workQueueFunc` reads it,
and then loads and stores it twice.  The register is `volatile`, so that these
are the accesses, and another thread can come between any two of them.

No lock is taken.  The accesses still behave as if each call took effect at
one moment between its begin and its end: `dev_write` sets the LED bit to a
level that does not depend on what it loaded, and of the two ends that the bit
can have behind a work, one is that of the work before the last such write and
the other that of the work behind it.
-/

namespace Esp32Source.Ebbchar

open Memory Machine

/-! ## The threads -/

inductive Thread where
  | user
  | worker
  deriving DecidableEq, Repr

instance : Fintype Thread where
  elems := {.user, .worker}
  complete := by
    intro thread
    cases thread <;> decide

/-- The next step of the process.  The length is that of the user's buffer. -/
inductive UserPlace where
  | outside
  | entered (call : Call)
  /-- `message` was copied from the user. -/
  | copied (length : Nat)
  | measured (length : Nat)
  /-- `message` was found to command a level. -/
  | commanded (level : Bool) (length : Nat)
  /-- The register was loaded, and its new value computed. -/
  | storing (value : BitVec 32) (length : Nat)
  deriving DecidableEq, Repr

/-- The next step of the work queue. -/
inductive WorkerPlace where
  | idle
  | entered
  | checked (status : Bool)
  | clearing (status : Bool) (value : BitVec 32)
  | cleared (status : Bool)
  | setting (value : BitVec 32)
  deriving DecidableEq, Repr

structure System where
  driver : Driver
  user : UserPlace
  worker : WorkerPlace
  /-- The work was put on the queue and has not begun. -/
  scheduled : Bool
  trace : List (Traced Thread Call Reply)

/-- Who takes the next step.  There is one process, which makes its calls one
after the other, and the queue runs a work once at a time. -/
inductive Turn where
  | call (call : Call)
  | user
  | interrupt
  | worker
  deriving DecidableEq, Repr

def System.enter (system : System) (call : Call) : System :=
  if system.user = .outside ∧ call ≠ .work then
    { system with
      user := .entered call
      trace := system.trace ++ [.enters .user call] }
  else
    system

def System.leave (system : System) (reply : Reply) : System :=
  { system with
    user := .outside
    trace := system.trace ++ [.leaves .user reply] }

/-- `dev_write` step by step.  The other file operations do not touch what the
work queue touches. -/
def System.userStep (system : System) : Except Fault System :=
  let driver := system.driver
  match system.user with
  | .outside => .ok system
  | .entered (.write buffer uncopied) => do
      let message ← copyFromUser driver.message buffer uncopied
      let rsult : Int := uncopied
      let copied := { system with driver := { driver with message } }
      if rsult < 0 then
        return copied.leave { result := 1 }
      else
        return { copied with user := .copied buffer.length }
  | .entered call => do
      let (next, reply) ← handle driver call
      return { system with driver := next }.leave reply
  | .copied length => do
      let sizeOfMessage ← strlen driver.message 0
      return { system with
        driver := { driver with sizeOfMessage }
        user := .measured length }
  | .measured length =>
      if cText driver.message.cells = command true then
        .ok { system with user := .commanded true length }
      else if cText driver.message.cells = command false then
        .ok { system with user := .commanded false length }
      else
        .ok (system.leave { result := length })
  | .commanded level length =>
      let value :=
        if level then turnOn driver.paDatReg else turnOff driver.paDatReg
      .ok { system with user := .storing value length }
  | .storing value length =>
      .ok ({ system with
        driver := { driver with paDatReg := value } }.leave
          { result := length })

/-- `schedule_work` of a work that is on the queue already does nothing. -/
def System.extIntr (system : System) : System :=
  { system with scheduled := true }

/-- `workQueueFunc` step by step. -/
def System.workerStep (system : System) : System :=
  let driver := system.driver
  match system.worker with
  | .idle =>
      if system.scheduled then
        { system with
          worker := .entered
          scheduled := false
          trace := system.trace ++ [.enters .worker .work] }
      else
        system
  | .entered =>
      let status := decide ((driver.paDatReg >>> 10) &&& 1#32 = 0#32)
      { system with worker := .checked status }
  | .checked status =>
      { system with worker := .clearing status (turnOff driver.paDatReg) }
  | .clearing status value =>
      { system with
        driver := { driver with paDatReg := value }
        worker := .cleared status }
  | .cleared status =>
      let value :=
        driver.paDatReg ||| ((if status then 1#32 else 0#32) <<< 10)
      { system with worker := .setting value }
  | .setting value =>
      { system with
        driver := { driver with paDatReg := value }
        worker := .idle
        trace := system.trace ++ [.leaves .worker { result := 0 }] }

def System.step (system : System) : Turn → Except Fault (System × Unit)
  | .call call => .ok (system.enter call, ())
  | .user => system.userStep.map fun next => (next, ())
  | .interrupt => .ok (system.extIntr, ())
  | .worker => .ok (system.workerStep, ())

/-- Nobody is in the driver. -/
def System.start (paDatReg : BitVec 32) : System where
  driver := Driver.initial paDatReg
  user := .outside
  worker := .idle
  scheduled := false
  trace := []

/-- The system after a schedule, in which a turn that cannot be taken does
nothing. -/
def systemAfter (paDatReg : BitVec 32) (schedule : List Turn) :
    Except Fault System :=
  after System.step (System.start paDatReg) schedule

/-! ## What is to hold -/

/-- What has become of the driver is what some order of the calls makes of it,
in which each call takes effect between its begin and its end, once, and
returns what it returned. -/
structure BehavesAtomically (paDatReg : BitVec 32) (system : System)
    (order : List Call) (driver : Driver) : Prop where
  linearizes : ∃ standing,
    Linearizes handle (Driver.initial paDatReg) system.trace order standing
      driver
  reached : driverAfter paDatReg order = .ok driver
  register : driver.paDatReg = system.driver.paDatReg
  whole : system.user = .outside → driver = system.driver
  complete : system.user = .outside → system.worker = .idle →
    order.Perm (entered system.trace)

/-- A fault is that of the call that the process is in, made at one moment. -/
def FaultsAtomically (paDatReg : BitVec 32) (system : System)
    (fault : Fault) : Prop :=
  ∃ order standing driver call,
    Linearizes handle (Driver.initial paDatReg) system.trace order standing
        driver ∧
      standing .user = .waiting call ∧ handle driver call = .error fault

/-- In the state that a schedule leads to, the calls behave as atomic ones,
every bit of the register but that of the LED has its initial value, and the
next step faults only where an atomic call does. -/
def InterleavesAtomically (paDatReg : BitVec 32) (system : System) : Prop :=
  (∃ order driver, BehavesAtomically paDatReg system order driver) ∧
    (∀ index, index ≠ 10 →
      system.driver.paDatReg.getLsbD index = paDatReg.getLsbD index) ∧
    ∀ turn fault, system.step turn = .error fault →
      FaultsAtomically paDatReg system fault

/-! ## The register -/

/-- The register with its LED bit at a level. -/
def withLed (register : BitVec 32) (level : Bool) : BitVec 32 :=
  if level then turnOn register else turnOff register

theorem withLed_setsLed (register : BitVec 32) (level : Bool) :
    SetsLed register (withLed register level) level := by
  cases level with
  | true => exact turnOn_setsLed register
  | false => exact turnOff_setsLed register

theorem SetsLed.trans {register middle next : BitVec 32} {first second : Bool}
    (sets : SetsLed register middle first)
    (setsAgain : SetsLed middle next second) :
    SetsLed register next second where
  led := setsAgain.led
  others := fun index other =>
    (setsAgain.others index other).trans (sets.others index other)

theorem SetsLed.eq_withLed {register next : BitVec 32} {level : Bool}
    (sets : SetsLed register next level) : next = withLed register level := by
  apply BitVec.eq_of_getLsbD_eq
  intro index inside
  have same := withLed_setsLed register level
  by_cases isLed : index = 10
  · rw [isLed, sets.led, same.led]
  · rw [sets.others index isLed, same.others index isLed]

theorem withLed_self (register : BitVec 32) :
    withLed register (register.getLsbD 10) = register := by
  have keeps : SetsLed register register (register.getLsbD 10) :=
    ⟨rfl, fun _ _ => rfl⟩
  exact keeps.eq_withLed.symm

/-- The last level counts. -/
theorem withLed_withLed (register : BitVec 32) (first second : Bool) :
    withLed (withLed register first) second = withLed register second :=
  ((withLed_setsLed register first).trans
    (withLed_setsLed (withLed register first) second)).eq_withLed

theorem turnOff_withLed (register : BitVec 32) (level : Bool) :
    turnOff (withLed register level) = withLed register false :=
  withLed_withLed register level false

theorem applyCommand_withLed (message : Buffer 256) (register : BitVec 32)
    (level : Bool) :
    applyCommand message (withLed register level) =
      withLed register ((readCommand (cText message.cells)).getD level) := by
  have sets := applyCommand_setsLed message (withLed register level)
  rw [(withLed_setsLed register level).led] at sets
  exact ((withLed_setsLed register level).trans sets).eq_withLed

/-- The status that the work computes is the level inverted. -/
theorem status_withLed (register : BitVec 32) (level : Bool) :
    decide ((withLed register level >>> 10) &&& 1#32 = 0#32) = !level := by
  have zeroIff := shiftRight_and_one_eq_zero_iff (withLed register level) 10
  rw [(withLed_setsLed register level).led] at zeroIff
  simp only [zeroIff]
  cases level <;> rfl

theorem or_status_withLed (register : BitVec 32) (level status : Bool) :
    withLed register level ||| ((if status then 1#32 else 0#32) <<< 10) =
      withLed register (level || status) := by
  cases status with
  | true =>
      rw [Bool.or_true]
      exact withLed_withLed register level true
  | false =>
      simp

/-! ## Drivers that differ in the register -/

def Driver.withReg (driver : Driver) (paDatReg : BitVec 32) : Driver :=
  { driver with paDatReg }

@[simp]
theorem Driver.withReg_withReg (driver : Driver) (first second : BitVec 32) :
    (driver.withReg first).withReg second = driver.withReg second :=
  rfl

@[simp]
theorem Driver.withReg_paDatReg (driver : Driver) (paDatReg : BitVec 32) :
    (driver.withReg paDatReg).paDatReg = paDatReg :=
  rfl

theorem Driver.withReg_self {driver : Driver} {paDatReg : BitVec 32}
    (isRegister : driver.paDatReg = paDatReg) :
    driver.withReg paDatReg = driver := by
  rw [← isRegister]
  rfl

theorem message_of_withReg {text driver : Driver}
    (same : ∀ register, text.withReg register = driver.withReg register) :
    text.message = driver.message := by
  have sameMessage := congrArg Driver.message (same 0)
  exact sameMessage

theorem numberOpens_of_withReg {text driver : Driver}
    (same : ∀ register, text.withReg register = driver.withReg register) :
    text.numberOpens = driver.numberOpens := by
  have sameOpens := congrArg Driver.numberOpens (same 0)
  exact sameOpens

/-- A call of a process that writes nothing does not read the register. -/
theorem handle_withReg {driver next : Driver} {call : Call} {reply : Reply}
    (noText : call.payload = none) (noWork : call ≠ .work)
    (handled : handle driver call = .ok (next, reply))
    (register : BitVec 32) :
    next.paDatReg = driver.paDatReg ∧
      handle (driver.withReg register) call =
        .ok (next.withReg register, reply) := by
  cases call with
  | write buffer uncopied => cases noText
  | work => exact absurd rfl noWork
  | «open» =>
      cases handled
      exact ⟨rfl, rfl⟩
  | release =>
      cases handled
      exact ⟨rfl, rfl⟩
  | read len uncopied =>
      cases handled
      exact ⟨rfl, rfl⟩

/-- A work inverts the LED and keeps the rest. -/
theorem handle_work_withReg (text : Driver) (register : BitVec 32)
    (level : Bool) :
    handle (text.withReg (withLed register level)) .work =
      .ok (text.withReg (withLed register (!level)), { result := 0 }) := by
  have sets := workQueueFunc_setsLed (text.withReg (withLed register level))
  have isLevel :
      ledLevel (text.withReg (withLed register level)) = level :=
    (withLed_setsLed register level).led
  rw [isLevel] at sets
  have inverts :=
    ((withLed_setsLed register level).trans sets).eq_withLed
  have shape :
      workQueueFunc (text.withReg (withLed register level)) =
        text.withReg
          (workQueueFunc
            (text.withReg (withLed register level))).paDatReg :=
    rfl
  rw [handle, shape, inverts]

/-- What `devWrite` makes of the message and of its length, whatever the
register holds. -/
def Writes (text : Driver) (buffer : List UInt8) (uncopied : Nat)
    (written : Driver) : Prop :=
  ∀ register,
    devWrite (text.withReg register) buffer uncopied =
      .ok (written.withReg (applyCommand written.message register),
        { result := buffer.length })

section Write

variable {text driver : Driver} {buffer : List UInt8} {uncopied : Nat}

theorem writes_of_measured {sizeOfMessage : Nat}
    (copied : copyFromUser text.message buffer uncopied = .ok driver.message)
    (measured : strlen driver.message 0 = .ok sizeOfMessage)
    (sameOpens : driver.numberOpens = text.numberOpens) :
    Writes text buffer uncopied { driver with sizeOfMessage } := by
  intro register
  have notNegative : ¬ ((uncopied : Int) < 0) := by omega
  rw [devWrite, show (text.withReg register).message = text.message from rfl,
    copied]
  simp only [bind, Except.bind, if_neg notNegative, measured]
  simp [pure, Except.pure, Driver.withReg, sameOpens]

/-- At its end a write shows what its message commands. -/
theorem Writes.handled {written : Driver}
    (writes : Writes text buffer uncopied written) (register : BitVec 32)
    (level : Bool) :
    handle (text.withReg (withLed register level))
        (.write buffer uncopied) =
      .ok (written.withReg (withLed register
          ((readCommand (cText written.message.cells)).getD level)),
        { result := buffer.length }) := by
  rw [← applyCommand_withLed]
  exact writes (withLed register level)

theorem devWrite_of_copy_faults {fault : Fault}
    (faults : copyFromUser text.message buffer uncopied = .error fault)
    (register : BitVec 32) :
    devWrite (text.withReg register) buffer uncopied = .error fault := by
  rw [devWrite, show (text.withReg register).message = text.message from rfl,
    faults]
  rfl

theorem devWrite_of_strlen_faults {fault : Fault}
    (copied : copyFromUser text.message buffer uncopied = .ok driver.message)
    (faults : strlen driver.message 0 = .error fault)
    (register : BitVec 32) :
    devWrite (text.withReg register) buffer uncopied = .error fault := by
  have notNegative : ¬ ((uncopied : Int) < 0) := by omega
  rw [devWrite, show (text.withReg register).message = text.message from rfl,
    copied]
  simp only [bind, Except.bind, if_neg notNegative, faults]

end Write

/-! ## Candidates for the order -/

/-- Where the two threads stand. -/
def standings (user worker : Standing Call Reply) :
    Thread → Standing Call Reply
  | .user => user
  | .worker => worker

@[simp]
theorem update_user (user worker moved : Standing Call Reply) :
    Function.update (standings user worker) .user moved =
      standings moved worker := by
  funext thread
  cases thread <;> rfl

@[simp]
theorem update_worker (user worker moved : Standing Call Reply) :
    Function.update (standings user worker) .worker moved =
      standings user moved := by
  funext thread
  cases thread <;> rfl

/-- Some order of the calls leaves the message as in `text` and the LED at the
level. -/
def Candidate (paDatReg : BitVec 32)
    (trace : List (Traced Thread Call Reply)) (text : Driver)
    (user worker : Standing Call Reply) (level : Bool) : Prop :=
  ∃ order,
    Linearizes handle (Driver.initial paDatReg) trace order
      (standings user worker) (text.withReg (withLed paDatReg level))

section Candidates

variable {paDatReg : BitVec 32} {trace : List (Traced Thread Call Reply)}
  {text next : Driver} {user worker : Standing Call Reply}
  {level nextLevel : Bool}

theorem candidate_nil (paDatReg : BitVec 32) :
    Candidate paDatReg [] (Driver.initial paDatReg) .outside .outside
      (paDatReg.getLsbD 10) := by
  have nobody : standings .outside .outside =
      fun _ => (.outside : Standing Call Reply) := by
    funext thread
    cases thread <;> rfl
  refine ⟨[], ?_⟩
  rw [withLed_self, nobody]
  exact Linearizes.start

theorem Candidate.userEnters (call : Call)
    (candidate : Candidate paDatReg trace text .outside worker level) :
    Candidate paDatReg (trace ++ [.enters .user call]) text (.waiting call)
      worker level := by
  obtain ⟨order, linearizes⟩ := candidate
  refine ⟨order, ?_⟩
  rw [← update_user .outside worker]
  exact linearizes.enters call rfl

/-- A call of the process takes effect and returns. -/
theorem Candidate.userReturns {call : Call} {reply : Reply}
    (candidate : Candidate paDatReg trace text (.waiting call) worker level)
    (handled : handle (text.withReg (withLed paDatReg level)) call =
      .ok (next.withReg (withLed paDatReg nextLevel), reply)) :
    Candidate paDatReg (trace ++ [.leaves .user reply]) next .outside worker
      nextLevel := by
  obtain ⟨order, linearizes⟩ := candidate
  have waits : standings (.waiting call) worker .user = .waiting call := rfl
  have taken := linearizes.takesEffect waits handled
  rw [update_user] at taken
  refine ⟨order ++ [call], ?_⟩
  rw [← update_user (.answered reply) worker]
  exact taken.leaves rfl

theorem Candidate.workerEnters
    (candidate : Candidate paDatReg trace text user .outside level) :
    Candidate paDatReg (trace ++ [.enters .worker .work]) text user
      (.waiting .work) level := by
  obtain ⟨order, linearizes⟩ := candidate
  have isOutside : standings user .outside .worker = .outside := rfl
  refine ⟨order, ?_⟩
  rw [← update_worker user .outside]
  exact linearizes.enters .work isOutside

theorem Candidate.workTakesEffect
    (candidate :
      Candidate paDatReg trace text user (.waiting .work) level) :
    Candidate paDatReg trace text user (.answered { result := 0 })
      (!level) := by
  obtain ⟨order, linearizes⟩ := candidate
  refine ⟨order ++ [.work], ?_⟩
  rw [← update_worker user (.waiting .work)]
  exact linearizes.takesEffect rfl (handle_work_withReg text paDatReg level)

theorem Candidate.workerLeaves
    (candidate :
      Candidate paDatReg trace text user (.answered { result := 0 })
        level) :
    Candidate paDatReg (trace ++ [.leaves .worker { result := 0 }]) text user
      .outside level := by
  obtain ⟨order, linearizes⟩ := candidate
  refine ⟨order, ?_⟩
  rw [← update_worker user (.answered { result := 0 })]
  exact linearizes.leaves rfl

end Candidates

/-! ## The process -/

/-- Where the process is in its call.  `text` holds the message as it was in
front of a write. -/
inductive UserAt (paDatReg : BitVec 32) (text driver : Driver) :
    UserPlace → Standing Call Reply → Prop where
  | outside (same : ∀ register,
      text.withReg register = driver.withReg register) :
      UserAt paDatReg text driver .outside .outside
  | entered {call : Call} (noWork : call ≠ .work)
      (same : ∀ register,
        text.withReg register = driver.withReg register) :
      UserAt paDatReg text driver (.entered call) (.waiting call)
  | copied {buffer : List UInt8} {uncopied : Nat}
      (copied : copyFromUser text.message buffer uncopied =
        .ok driver.message)
      (sameOpens : driver.numberOpens = text.numberOpens) :
      UserAt paDatReg text driver (.copied buffer.length)
        (.waiting (.write buffer uncopied))
  | measured {buffer : List UInt8} {uncopied : Nat}
      (writes : Writes text buffer uncopied driver) :
      UserAt paDatReg text driver (.measured buffer.length)
        (.waiting (.write buffer uncopied))
  | commanded {buffer : List UInt8} {uncopied : Nat} {level : Bool}
      (writes : Writes text buffer uncopied driver)
      (reads : readCommand (cText driver.message.cells) = some level) :
      UserAt paDatReg text driver (.commanded level buffer.length)
        (.waiting (.write buffer uncopied))
  | storing {buffer : List UInt8} {uncopied : Nat} {level : Bool}
      (writes : Writes text buffer uncopied driver)
      (reads : readCommand (cText driver.message.cells) = some level) :
      UserAt paDatReg text driver
        (.storing (withLed paDatReg level) buffer.length)
        (.waiting (.write buffer uncopied))

/-- The process does not look at the register of the driver. -/
theorem UserAt.withReg {paDatReg : BitVec 32} {text driver : Driver}
    {place : UserPlace} {standing : Standing Call Reply}
    (isAt : UserAt paDatReg text driver place standing)
    (register : BitVec 32) :
    UserAt paDatReg text (driver.withReg register) place standing := by
  cases isAt with
  | outside same => exact .outside same
  | entered noWork same => exact .entered noWork same
  | copied copied sameOpens => exact .copied copied sameOpens
  | measured writes => exact .measured writes
  | commanded writes reads => exact .commanded writes reads
  | storing writes reads => exact .storing writes reads

/-! ## The work queue -/

/-- Since the work began no write has set the LED: it is at `led`, and the work
will invert it. -/
def WorkerPlace.Alone (paDatReg : BitVec 32) (led level : Bool) :
    WorkerPlace → Prop
  | .idle | .entered => False
  | .checked status => status = !led ∧ level = led
  | .clearing status value =>
      status = !led ∧ value = withLed paDatReg false ∧ level = led
  | .cleared status => status = !led ∧ level = false
  | .setting value => value = withLed paDatReg (!led) ∧ level = false

/-- What the work has loaded differs from the register in the LED only. -/
def WorkerPlace.Sound (paDatReg : BitVec 32) : WorkerPlace → Prop
  | .idle | .entered => False
  | .checked _ | .cleared _ => True
  | .clearing _ value => value = withLed paDatReg false
  | .setting value => ∃ level, value = withLed paDatReg level

theorem WorkerPlace.Alone.sound {paDatReg : BitVec 32} {led level : Bool}
    {place : WorkerPlace} (alone : place.Alone paDatReg led level) :
    place.Sound paDatReg := by
  cases place with
  | idle => exact alone
  | entered => exact alone
  | checked status => exact trivial
  | clearing status value => exact alone.2.1
  | cleared status => exact trivial
  | setting value => exact ⟨!led, alone.1⟩

theorem WorkerPlace.Sound.ne_idle {paDatReg : BitVec 32}
    {place : WorkerPlace} (sound : place.Sound paDatReg) :
    place ≠ .idle := by
  intro isIdle
  rw [isIdle] at sound
  exact sound

/-- Which levels the LED can end at, by the place of the work: that of its
begin until it began, and both that of a work that is still to come and that
of a work that has been, until it ends.  The last two are apart as long as the
work is alone, and the same behind a write that set the LED. -/
inductive WorkerAt (paDatReg : BitVec 32)
    (candidate : Standing Call Reply → Bool → Prop) :
    WorkerPlace → Bool → Prop where
  | idle {level : Bool} (isCandidate : candidate .outside level) :
      WorkerAt paDatReg candidate .idle level
  | entered {level : Bool}
      (isCandidate : candidate (.waiting .work) level) :
      WorkerAt paDatReg candidate .entered level
  | alone {place : WorkerPlace} {led level : Bool}
      (waits : candidate (.waiting .work) led)
      (answered : candidate (.answered { result := 0 }) (!led))
      (isAt : place.Alone paDatReg led level) :
      WorkerAt paDatReg candidate place level
  | overtaken {place : WorkerPlace} {led level : Bool}
      (waits : candidate (.waiting .work) led)
      (answered : candidate (.answered { result := 0 }) led)
      (isAt : place.Sound paDatReg) :
      WorkerAt paDatReg candidate place level

section WorkerAt

variable {paDatReg : BitVec 32}
  {candidate nextCandidate : Standing Call Reply → Bool → Prop}
  {place : WorkerPlace} {level : Bool}

/-- A step of the process that leaves the LED alone. -/
theorem WorkerAt.map
    (isAt : WorkerAt paDatReg candidate place level)
    (moves : ∀ standing led, candidate standing led →
      nextCandidate standing led) :
    WorkerAt paDatReg nextCandidate place level := by
  cases isAt with
  | idle isCandidate => exact .idle (moves _ _ isCandidate)
  | entered isCandidate => exact .entered (moves _ _ isCandidate)
  | alone waits answered isAt =>
      exact .alone (moves _ _ waits) (moves _ _ answered) isAt
  | overtaken waits answered isAt =>
      exact .overtaken (moves _ _ waits) (moves _ _ answered) isAt

/-- A step of the process that sets the LED: behind it the work has been
overtaken. -/
theorem WorkerAt.set {commanded : Bool}
    (isAt : WorkerAt paDatReg candidate place level)
    (moves : ∀ standing led, candidate standing led →
      nextCandidate standing commanded) :
    WorkerAt paDatReg nextCandidate place commanded := by
  cases isAt with
  | idle isCandidate => exact .idle (moves _ _ isCandidate)
  | entered isCandidate => exact .entered (moves _ _ isCandidate)
  | alone waits answered isAt =>
      exact .overtaken (moves _ _ waits) (moves _ _ answered) isAt.sound
  | overtaken waits answered isAt =>
      exact .overtaken (moves _ _ waits) (moves _ _ answered) isAt

/-- Some candidate has the level that the LED is at, whatever the work has
stored so far. -/
theorem WorkerAt.exists_candidate
    (isAt : WorkerAt paDatReg candidate place level)
    (takesEffect : ∀ led, candidate (.waiting .work) led →
      candidate (.answered { result := 0 }) (!led)) :
    ∃ standing, candidate standing level ∧
      (place = .idle → standing = .outside) := by
  have either : ∀ led, candidate (.waiting .work) led →
      ∃ standing, candidate standing level := by
    intro led waits
    by_cases same : level = led
    · exact ⟨_, same ▸ waits⟩
    · have inverted : level = !led := Bool.eq_not.mpr same
      exact ⟨_, inverted ▸ takesEffect led waits⟩
  cases isAt with
  | idle isCandidate => exact ⟨_, isCandidate, fun _ => rfl⟩
  | entered isCandidate =>
      exact ⟨_, isCandidate, fun isIdle => by cases isIdle⟩
  | alone waits answered isAt =>
      obtain ⟨standing, isCandidate⟩ := either _ waits
      exact ⟨standing, isCandidate,
        fun isIdle => absurd isIdle isAt.sound.ne_idle⟩
  | overtaken waits answered isAt =>
      obtain ⟨standing, isCandidate⟩ := either _ waits
      exact ⟨standing, isCandidate,
        fun isIdle => absurd isIdle isAt.ne_idle⟩

/-! ### The steps of the work -/

theorem WorkerAt.enters
    (isAt : WorkerAt paDatReg candidate .idle level)
    (moves : ∀ led, candidate .outside led →
      nextCandidate (.waiting .work) led) :
    WorkerAt paDatReg nextCandidate .entered level := by
  cases isAt with
  | idle isCandidate => exact .entered (moves _ isCandidate)
  | alone waits answered isAt => exact absurd isAt id
  | overtaken waits answered isAt => exact absurd isAt id

theorem WorkerAt.checks
    (isAt : WorkerAt paDatReg candidate .entered level)
    (takesEffect : ∀ led, candidate (.waiting .work) led →
      candidate (.answered { result := 0 }) (!led)) :
    WorkerAt paDatReg candidate (.checked !level) level := by
  cases isAt with
  | entered isCandidate =>
      exact .alone isCandidate (takesEffect _ isCandidate) ⟨rfl, rfl⟩
  | alone waits answered isAt => exact absurd isAt id
  | overtaken waits answered isAt => exact absurd isAt id

theorem WorkerAt.clears {status : Bool}
    (isAt : WorkerAt paDatReg candidate (.checked status) level) :
    WorkerAt paDatReg candidate
      (.clearing status (withLed paDatReg false)) level := by
  cases isAt with
  | alone waits answered isAt =>
      exact .alone waits answered ⟨isAt.1, rfl, isAt.2⟩
  | overtaken waits answered isAt => exact .overtaken waits answered rfl

theorem WorkerAt.storesCleared {status : Bool} {value : BitVec 32}
    (isAt : WorkerAt paDatReg candidate (.clearing status value) level) :
    value = withLed paDatReg false ∧
      WorkerAt paDatReg candidate (.cleared status) false := by
  cases isAt with
  | alone waits answered isAt =>
      exact ⟨isAt.2.1, .alone waits answered ⟨isAt.1, rfl⟩⟩
  | overtaken waits answered isAt =>
      exact ⟨isAt, .overtaken waits answered trivial⟩

theorem WorkerAt.sets {status : Bool}
    (isAt : WorkerAt paDatReg candidate (.cleared status) level) :
    WorkerAt paDatReg candidate
      (.setting (withLed paDatReg (level || status))) level := by
  cases isAt with
  | alone waits answered isAt =>
      refine .alone waits answered ⟨?_, isAt.2⟩
      rw [isAt.2, isAt.1, Bool.false_or]
  | overtaken waits answered isAt =>
      exact .overtaken waits answered ⟨_, rfl⟩

/-- What the work stores last is the level of a candidate in which it has
taken effect: where it was overtaken, in front of the last write or behind
it. -/
theorem WorkerAt.storesSet {value : BitVec 32}
    (isAt : WorkerAt paDatReg candidate (.setting value) level)
    (takesEffect : ∀ led, candidate (.waiting .work) led →
      candidate (.answered { result := 0 }) (!led)) :
    ∃ stored, value = withLed paDatReg stored ∧
      candidate (.answered { result := 0 }) stored := by
  cases isAt with
  | @alone _ led _ waits answered isAt => exact ⟨!led, isAt.1, answered⟩
  | @overtaken _ led _ waits answered isAt =>
      obtain ⟨stored, isValue⟩ := isAt
      refine ⟨stored, isValue, ?_⟩
      by_cases same : stored = led
      · rw [same]
        exact answered
      · rw [Bool.eq_not.mpr same]
        exact takesEffect led waits

end WorkerAt

/-! ## One step -/

/-- The register differs from its initial value in the LED at most, and the
candidates for the order fit the places of the two threads. -/
def Explained (paDatReg : BitVec 32) (system : System) : Prop :=
  ∃ text standing level,
    system.driver.paDatReg = withLed paDatReg level ∧
      UserAt paDatReg text system.driver system.user standing ∧
      WorkerAt paDatReg (Candidate paDatReg system.trace text standing)
        system.worker level

section Steps

variable {paDatReg : BitVec 32} {system next : System}

theorem explained_start (paDatReg : BitVec 32) :
    Explained paDatReg (System.start paDatReg) :=
  ⟨Driver.initial paDatReg, .outside, paDatReg.getLsbD 10,
    (withLed_self paDatReg).symm, .outside fun _ => rfl,
    .idle (candidate_nil paDatReg)⟩

theorem Explained.enter (explained : Explained paDatReg system)
    (call : Call) : Explained paDatReg (system.enter call) := by
  obtain ⟨text, standing, level, register, isUser, isWorker⟩ := explained
  rw [System.enter]
  by_cases enters : system.user = .outside ∧ call ≠ .work
  · rw [if_pos enters]
    rw [enters.1] at isUser
    cases isUser with
    | outside same =>
        exact ⟨text, .waiting call, level, register,
          .entered enters.2 same,
          isWorker.map fun _ _ candidate => candidate.userEnters call⟩
  · rw [if_neg enters]
    exact ⟨text, standing, level, register, isUser, isWorker⟩

theorem Explained.workerStep (explained : Explained paDatReg system) :
    Explained paDatReg system.workerStep := by
  obtain ⟨text, standing, level, register, isUser, isWorker⟩ := explained
  have moved : ∀ value, UserAt paDatReg text
      { system.driver with paDatReg := value } system.user standing :=
    fun value => isUser.withReg value
  cases place : system.worker with
  | idle =>
      simp only [System.workerStep, place]
      by_cases isScheduled : system.scheduled
      · rw [if_pos isScheduled]
        rw [place] at isWorker
        exact ⟨text, standing, level, register, isUser,
          isWorker.enters fun _ candidate => candidate.workerEnters⟩
      · rw [if_neg isScheduled]
        exact ⟨text, standing, level, register, isUser, isWorker⟩
  | entered =>
      rw [place] at isWorker
      simp only [System.workerStep, place, register, status_withLed]
      exact ⟨text, standing, level, register, isUser,
        isWorker.checks fun _ candidate => candidate.workTakesEffect⟩
  | checked status =>
      rw [place] at isWorker
      simp only [System.workerStep, place, register, turnOff_withLed]
      exact ⟨text, standing, level, register, isUser, isWorker.clears⟩
  | clearing status value =>
      rw [place] at isWorker
      simp only [System.workerStep, place]
      obtain ⟨isValue, isCleared⟩ := isWorker.storesCleared
      exact ⟨text, standing, false, isValue, moved value, isCleared⟩
  | cleared status =>
      rw [place] at isWorker
      simp only [System.workerStep, place, register, or_status_withLed]
      exact ⟨text, standing, level, register, isUser, isWorker.sets⟩
  | setting value =>
      rw [place] at isWorker
      simp only [System.workerStep, place]
      obtain ⟨stored, isValue, answered⟩ :=
        isWorker.storesSet fun _ candidate => candidate.workTakesEffect
      exact ⟨text, standing, stored, isValue, moved value,
        .idle answered.workerLeaves⟩

/-- A call that writes nothing is one step. -/
theorem userStep_of_noText {call : Call} {driver : Driver} {reply : Reply}
    (place : system.user = .entered call) (noText : call.payload = none)
    (handled : handle system.driver call = .ok (driver, reply)) :
    system.userStep = .ok ({ system with driver }.leave reply) := by
  cases call with
  | write buffer uncopied => cases noText
  | _ =>
      simp only [System.userStep, place, handled]
      rfl

theorem userStep_of_write {buffer : List UInt8} {uncopied : Nat}
    (place : system.user = .entered (.write buffer uncopied)) :
    system.userStep =
      (copyFromUser system.driver.message buffer uncopied).map
        fun message =>
          { system with
            driver := { system.driver with message }
            user := .copied buffer.length } := by
  have notNegative : ¬ ((uncopied : Int) < 0) := by omega
  simp only [System.userStep, place, if_neg notNegative]
  cases copyFromUser system.driver.message buffer uncopied <;> rfl

theorem userStep_of_copied {length : Nat}
    (place : system.user = .copied length) :
    system.userStep =
      (strlen system.driver.message 0).map fun sizeOfMessage =>
        { system with
          driver := { system.driver with sizeOfMessage }
          user := .measured length } := by
  simp only [System.userStep, place]
  cases strlen system.driver.message 0 <;> rfl

/-- The two comparisons read the command that the message holds. -/
theorem userStep_of_measured {length : Nat}
    (place : system.user = .measured length) :
    system.userStep =
      match readCommand (cText system.driver.message.cells) with
      | some level => .ok { system with user := .commanded level length }
      | none => .ok (system.leave { result := length }) := by
  simp only [System.userStep, place, readCommand]
  by_cases isOn : cText system.driver.message.cells = command true
  · rw [if_pos isOn, if_pos isOn]
  · by_cases isOff : cText system.driver.message.cells = command false
    · rw [if_neg isOn, if_neg isOn, if_pos isOff, if_pos isOff]
    · rw [if_neg isOn, if_neg isOn, if_neg isOff, if_neg isOff]

theorem Explained.userEntered {call : Call}
    (explained : Explained paDatReg system)
    (place : system.user = .entered call)
    (steps : system.userStep = .ok next) : Explained paDatReg next := by
  obtain ⟨text, standing, level, register, isUser, isWorker⟩ := explained
  rw [place] at isUser
  cases isUser with
  | entered noWork same =>
      cases payload : call.payload with
      | some bytes =>
          cases call with
          | write buffer uncopied =>
              rw [userStep_of_write place] at steps
              obtain ⟨message, copied, isNext⟩ := map_eq_ok_iff.mp steps
              subst isNext
              rw [← message_of_withReg same] at copied
              exact ⟨text, _, level, register,
                .copied copied (numberOpens_of_withReg same).symm, isWorker⟩
          | _ => cases payload
      | none =>
          obtain ⟨driver, reply, handled, _, _⟩ :=
            handle_keeps_message system.driver payload
          rw [userStep_of_noText place payload handled] at steps
          cases steps
          obtain ⟨sameRegister, _⟩ :=
            handle_withReg payload noWork handled paDatReg
          refine ⟨driver, .outside, level, sameRegister.trans register,
            .outside fun _ => rfl,
            isWorker.map fun _ led candidate => candidate.userReturns ?_⟩
          rw [same]
          exact (handle_withReg payload noWork handled _).2

theorem Explained.userMeasured {length : Nat}
    (explained : Explained paDatReg system)
    (place : system.user = .measured length)
    (steps : system.userStep = .ok next) : Explained paDatReg next := by
  obtain ⟨text, standing, level, register, isUser, isWorker⟩ := explained
  rw [userStep_of_measured place] at steps
  rw [place] at isUser
  cases isUser with
  | measured writes =>
      cases reads : readCommand (cText system.driver.message.cells) with
      | some commanded =>
          rw [reads] at steps
          cases steps
          exact ⟨text, _, level, register, .commanded writes reads, isWorker⟩
      | none =>
          rw [reads] at steps
          cases steps
          refine ⟨system.driver, .outside, level, register,
            .outside fun _ => rfl,
            isWorker.map fun _ led candidate => candidate.userReturns ?_⟩
          have handled := writes.handled paDatReg led
          rw [reads] at handled
          exact handled

theorem Explained.userStep (explained : Explained paDatReg system)
    (steps : system.userStep = .ok next) : Explained paDatReg next := by
  cases place : system.user with
  | outside =>
      simp only [System.userStep, place] at steps
      cases steps
      exact explained
  | entered call => exact explained.userEntered place steps
  | copied length =>
      obtain ⟨text, standing, level, register, isUser, isWorker⟩ := explained
      rw [userStep_of_copied place] at steps
      obtain ⟨sizeOfMessage, measured, isNext⟩ := map_eq_ok_iff.mp steps
      subst isNext
      rw [place] at isUser
      cases isUser with
      | copied copied sameOpens =>
          exact ⟨text, _, level, register,
            .measured (writes_of_measured copied measured sameOpens),
            isWorker⟩
  | measured length => exact explained.userMeasured place steps
  | commanded commanded length =>
      obtain ⟨text, standing, level, register, isUser, isWorker⟩ := explained
      simp only [System.userStep, place] at steps
      cases steps
      rw [place] at isUser
      cases isUser with
      | commanded writes reads =>
          have isValue :
              (if commanded then turnOn system.driver.paDatReg
                else turnOff system.driver.paDatReg) =
                withLed paDatReg commanded := by
            rw [register]
            exact withLed_withLed paDatReg level commanded
          refine ⟨text, _, level, register, ?_, isWorker⟩
          rw [isValue]
          exact .storing writes reads
  | storing value length =>
      obtain ⟨text, standing, level, register, isUser, isWorker⟩ := explained
      simp only [System.userStep, place] at steps
      cases steps
      rw [place] at isUser
      cases isUser with
      | @storing buffer uncopied commanded writes reads =>
          refine ⟨_, .outside, commanded, rfl, .outside fun _ => rfl,
            isWorker.set fun _ led candidate => candidate.userReturns ?_⟩
          have handled := writes.handled paDatReg led
          rw [reads] at handled
          exact handled

/-- Some order of the calls, with the level that the LED is at. -/
theorem Explained.exists_order (explained : Explained paDatReg system) :
    ∃ text standing worker order level,
      system.driver.paDatReg = withLed paDatReg level ∧
        UserAt paDatReg text system.driver system.user standing ∧
        Linearizes handle (Driver.initial paDatReg) system.trace order
          (standings standing worker)
          (text.withReg (withLed paDatReg level)) ∧
        (system.worker = .idle → worker = .outside) := by
  obtain ⟨text, standing, level, register, isUser, isWorker⟩ := explained
  obtain ⟨worker, ⟨order, linearizes⟩, isIdle⟩ :=
    isWorker.exists_candidate fun _ candidate => candidate.workTakesEffect
  exact ⟨text, standing, worker, order, level, register, isUser, linearizes,
    isIdle⟩

/-- The process stops where its call does when it is made at one moment. -/
theorem Explained.userFaults (explained : Explained paDatReg system)
    {fault : Fault} (faults : system.userStep = .error fault) :
    FaultsAtomically paDatReg system fault := by
  obtain ⟨text, standing, worker, order, level, register, isUser, linearizes,
    _⟩ := explained.exists_order
  cases place : system.user with
  | outside =>
      simp only [System.userStep, place] at faults
      cases faults
  | entered call =>
      rw [place] at isUser
      cases isUser with
      | entered noWork same =>
          refine ⟨order, _, _, call, linearizes, rfl, ?_⟩
          cases payload : call.payload with
          | some bytes =>
              cases call with
              | write buffer uncopied =>
                  rw [userStep_of_write place] at faults
                  apply devWrite_of_copy_faults
                  rw [message_of_withReg same]
                  exact map_eq_error_iff.mp faults
              | _ => cases payload
          | none =>
              obtain ⟨driver, reply, handled, _, _⟩ :=
                handle_keeps_message system.driver payload
              rw [userStep_of_noText place payload handled] at faults
              cases faults
  | copied length =>
      rw [place] at isUser
      cases isUser with
      | copied copied sameOpens =>
          rw [userStep_of_copied place] at faults
          exact ⟨order, _, _, _, linearizes, rfl,
            devWrite_of_strlen_faults copied (map_eq_error_iff.mp faults) _⟩
  | measured length =>
      rw [userStep_of_measured place] at faults
      cases reads : readCommand (cText system.driver.message.cells) <;>
        (rw [reads] at faults; cases faults)
  | commanded commanded length =>
      simp only [System.userStep, place] at faults
      cases faults
  | storing value length =>
      simp only [System.userStep, place] at faults
      cases faults

theorem Explained.step (explained : Explained paDatReg system) {turn : Turn}
    {output : Unit} (steps : system.step turn = .ok (next, output)) :
    Explained paDatReg next := by
  cases turn with
  | call call =>
      cases steps
      exact explained.enter call
  | user =>
      obtain ⟨reached, stepped, same⟩ := map_eq_ok_iff.mp steps
      cases same
      exact explained.userStep stepped
  | interrupt =>
      cases steps
      exact explained
  | worker =>
      cases steps
      exact explained.workerStep

end Steps

/-! ## Whole runs -/

/-- The step invariant holds in every state of every run. -/
theorem systemAfter_explained {paDatReg : BitVec 32} {schedule : List Turn}
    {system : System} (reached : systemAfter paDatReg schedule = .ok system) :
    Explained paDatReg system := by
  refine after_induction (motive := fun _ state => Explained paDatReg state)
    (explained_start paDatReg) ?_ reached
  intro _ turn state next output _ explained steps
  exact explained.step steps

/-- When the process is outside its last call has had its whole effect. -/
theorem UserAt.eq_of_outside {paDatReg register : BitVec 32}
    {text driver : Driver} {standing : Standing Call Reply}
    (isAt : UserAt paDatReg text driver .outside standing)
    (isRegister : driver.paDatReg = register) :
    standing = .outside ∧ text.withReg register = driver := by
  cases isAt with
  | outside same =>
      rw [same]
      exact ⟨rfl, Driver.withReg_self isRegister⟩

/-- In every interleaving of the register accesses of `dev_write` with those
of `workQueueFunc`, the file operations and the works behave as if each had
been made at one moment between its begin and its end. -/
theorem interleaves_atomically (paDatReg : BitVec 32)
    (schedule : List Turn) (system : System)
    (reached : systemAfter paDatReg schedule = .ok system) :
    InterleavesAtomically paDatReg system := by
  have explained := systemAfter_explained reached
  obtain ⟨text, standing, worker, order, level, register, isUser, linearizes,
    isIdle⟩ := explained.exists_order
  refine ⟨⟨order, _, ⟨_, linearizes⟩, linearizes.after_eq, register.symm,
    ?_, ?_⟩, ?_, ?_⟩
  · intro isOutside
    rw [isOutside] at isUser
    exact (isUser.eq_of_outside register).2
  · intro isOutside workerIdle
    rw [isOutside] at isUser
    apply linearizes.perm_entered
    intro thread
    cases thread with
    | user => exact (isUser.eq_of_outside register).1
    | worker => exact isIdle workerIdle
  · intro index other
    rw [register]
    exact (withLed_setsLed paDatReg level).others index other
  · intro turn fault faults
    cases turn with
    | call call => cases faults
    | user => exact explained.userFaults (map_eq_error_iff.mp faults)
    | interrupt => cases faults
    | worker => cases faults

/-- With the LED on, `"1\n"` is written between a load and the store of a
work.  The work takes the level back, as one behind the write does. -/
def overtakenWork : List Turn :=
  [.interrupt, .worker, .worker, .worker, .call (.write (ascii "1\n") 0),
    .user, .user, .user, .user, .user, .worker, .worker, .worker]

theorem interleaves_atomically_overtakenWork :
    ∃ system,
      systemAfter 0x400 overtakenWork = .ok system ∧
        ledLevel system.driver = false ∧
        InterleavesAtomically 0x400 system := by
  have isOff :
      (systemAfter 0x400 overtakenWork).map
        (fun system => ledLevel system.driver) = .ok false := by
    decide +kernel
  obtain ⟨system, reached, level⟩ := map_eq_ok_iff.mp isOff
  exact ⟨system, reached, level,
    interleaves_atomically 0x400 overtakenWork system reached⟩

end Esp32Source.Ebbchar
