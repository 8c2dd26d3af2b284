import Esp32Source.Machine.History
import Esp32Source.Machine.Mutex
import Mathlib.Algebra.Group.Nat.Defs

/-!
# Two threads that count under a mutex

`calSum` and `calSub` of `thread.c` add one to `commonVar` 65535 times each,
between a lock and an unlock of one mutex.  They differ in the type of their
loop counter only: an `unsigned int` here, a `uint16_t` there, which ends its
loop at the largest value it has.

A thread takes one step at a time: a lock, a load, a store, or an unlock with
the loop head behind it.  A lock of a mutex that is taken is refused until the
mutex is free.  The increments that a thread has completed are recorded beside
its counter.
-/

namespace Esp32Source.Ipc

open Machine

inductive Thread where
  | calSum
  | calSub
  deriving DecidableEq, Repr

/-- The next step of a thread. -/
inductive Place where
  | lock
  | load
  /-- `commonVar` was loaded. -/
  | store (loaded : Nat)
  | unlock
  | ended
  deriving DecidableEq, Repr

structure Worker where
  place : Place
  counter : Nat
  completed : Nat
  deriving DecidableEq, Repr

structure Counting where
  commonVar : Nat
  mutexVar : Option Thread
  workers : Thread → Worker

/-- Why a thread cannot take a step. -/
inductive Refusal where
  | blocked
  | hasEnded
  deriving DecidableEq, Repr

/-! ## The threads -/

/-- The head of the loop. -/
def loopHead (counter : Nat) : Place :=
  if counter < 65535 then .lock else .ended

/-- A step of the loop with a counter of the given width. -/
def countingLoop (width : Nat) (self : Thread) (state : Counting) :
    Except Refusal Counting :=
  let worker := state.workers self
  match worker.place with
  | .lock =>
      if state.mutexVar = none then
        .ok { state with
          mutexVar := some self
          workers := Function.update state.workers self
            { worker with place := .load } }
      else
        .error .blocked
  | .load =>
      .ok { state with
        workers := Function.update state.workers self
          { worker with place := .store state.commonVar } }
  | .store loaded =>
      .ok { state with
        commonVar := loaded + 1
        workers := Function.update state.workers self
          { worker with
            place := .unlock
            completed := worker.completed + 1 } }
  | .unlock =>
      -- the counter goes up behind the unlock, in its own width
      let counter := (worker.counter + 1) % 2 ^ width
      .ok { state with
        mutexVar := none
        workers := Function.update state.workers self
          { worker with place := loopHead counter, counter } }
  | .ended => .error .hasEnded

/-- The counter of `calSum` is an `unsigned int`. -/
def calSum : Counting → Except Refusal Counting :=
  countingLoop 32 .calSum

/-- The counter of `calSub` is a `uint16_t`. -/
def calSub : Counting → Except Refusal Counting :=
  countingLoop 16 .calSub

/-- The scheduler lets one thread take a step. -/
def countingStep (state : Counting) :
    Thread → Except Refusal (Counting × Unit)
  | .calSum => (calSum state).map fun next => (next, ())
  | .calSub => (calSub state).map fun next => (next, ())

/-- Both threads stand at the head of their loops. -/
def countingStart : Counting where
  commonVar := 10
  mutexVar := none
  workers := fun _ => ⟨loopHead 0, 0, 0⟩

/-- The state after a schedule, in which no refused thread takes a step. -/
def countingAfter (schedule : List Thread) : Except Refusal Counting :=
  after countingStep countingStart schedule

/-! ## What is to hold -/

/-- The thread is between its lock and its unlock. -/
def Worker.IsInside (worker : Worker) : Prop :=
  worker.place ≠ .lock ∧ worker.place ≠ .ended

def Counting.BothEnded (state : Counting) : Prop :=
  ∀ thread, (state.workers thread).place = .ended

/-- A number of both threads together. -/
def total (measure : Worker → Nat) (workers : Thread → Worker) : Nat :=
  measure (workers .calSum) + measure (workers .calSub)

/-- The increments that the threads have completed. -/
def Counting.completed (state : Counting) : Nat :=
  total Worker.completed state.workers

/-- The steps that are left to a thread. -/
def Worker.rank (worker : Worker) : Nat :=
  match worker.place with
  | .lock => 4 * (65535 - worker.counter)
  | .load => 4 * (65535 - worker.counter) - 1
  | .store _ => 4 * (65535 - worker.counter) - 2
  | .unlock => 4 * (65535 - worker.counter) - 3
  | .ended => 0

/-- What holds after every schedule. -/
structure Counts (schedule : List Thread) (state : Counting) : Prop where
  sum : state.commonVar = 10 + state.completed
  exclusive : ∀ first second,
    (state.workers first).IsInside → (state.workers second).IsInside →
      first = second
  noWrap : ∀ thread,
    (state.workers thread).completed =
        (state.workers thread).counter +
          (if (state.workers thread).place = .unlock then 1 else 0) ∧
      (state.workers thread).counter ≤ 65535
  short : schedule.length ≤ 2 * (4 * 65535)
  goesOn : ¬ state.BothEnded →
    ∃ thread next, countingStep state thread = .ok (next, ())
  whole : state.BothEnded → state.commonVar = 10 + 65535 + 65535

/-! ## The invariant -/

/-- The counter of a thread, the increments it has completed, and its place
belong together. -/
structure Worker.Sound (worker : Worker) : Prop where
  counted : worker.completed =
    worker.counter + (if worker.place = .unlock then 1 else 0)
  atMost : worker.counter ≤ 65535
  ended : worker.place = .ended ↔ worker.counter = 65535

theorem Worker.Sound.counter_ne {worker : Worker} (sound : worker.Sound)
    (notEnded : worker.place ≠ .ended) : worker.counter ≠ 65535 :=
  fun isLast => notEnded (sound.ended.mpr isLast)

/-- The owner of the mutex is the thread inside, and what it has loaded is
still the value of `commonVar`. -/
structure Consistent (schedule : List Thread) (state : Counting) :
    Prop where
  guards : Guards state.mutexVar fun thread =>
    (state.workers thread).IsInside
  sum : state.commonVar = 10 + state.completed
  loaded : ∀ thread loaded,
    (state.workers thread).place = .store loaded → loaded = state.commonVar
  sound : ∀ thread, (state.workers thread).Sound
  rank : schedule.length + total Worker.rank state.workers =
    2 * (4 * 65535)

theorem consistent_start : Consistent [] countingStart where
  guards := Guards.unlocked fun _ isInside => isInside.1 rfl
  sum := rfl
  loaded := by
    intro thread loaded isStore
    cases isStore
  sound := fun _ =>
    show Worker.Sound ⟨.lock, 0, 0⟩ from ⟨rfl, by decide, by decide⟩
  rank := rfl

/-! ## One step -/

theorem total_update (measure : Worker → Nat) (workers : Thread → Worker)
    (self : Thread) (worker : Worker) :
    total measure (Function.update workers self worker) +
        measure (workers self) =
      total measure workers + measure worker := by
  cases self with
  | calSum =>
      rw [total, total, Function.update_self, Function.update_of_ne]
      · omega
      · decide
  | calSub =>
      rw [total, total, Function.update_self, Function.update_of_ne]
      · omega
      · decide

/-- A step of one thread keeps the invariant, if its new place fits the
mutex, the variable, and its own counter. -/
theorem Consistent.update {schedule : List Thread} {state : Counting}
    (consistent : Consistent schedule state) (self : Thread)
    {worker : Worker} {commonVar : Nat} {mutexVar : Option Thread}
    (guards : Guards mutexVar fun thread =>
      (Function.update state.workers self worker thread).IsInside)
    (sum : commonVar + (state.workers self).completed =
      state.commonVar + worker.completed)
    (loaded : ∀ thread loaded,
      (Function.update state.workers self worker thread).place =
          .store loaded →
        loaded = commonVar)
    (sound : worker.Sound)
    (rank : worker.rank + 1 = (state.workers self).rank) :
    Consistent (schedule ++ [self])
      ⟨commonVar, mutexVar, Function.update state.workers self worker⟩ where
  guards := guards
  sum := by
    have completes :=
      total_update Worker.completed state.workers self worker
    have before := consistent.sum
    rw [Counting.completed] at before ⊢
    dsimp only
    omega
  loaded := loaded
  sound := by
    intro thread
    by_cases same : thread = self
    · rw [same]
      dsimp only
      rw [Function.update_self]
      exact sound
    · dsimp only
      rw [Function.update_of_ne same]
      exact consistent.sound thread
  rank := by
    have lowers := total_update Worker.rank state.workers self worker
    have before := consistent.rank
    rw [List.length_append, List.length_singleton]
    dsimp only
    omega

/-- While a thread is inside, no other one is about to store. -/
theorem Consistent.loaded_update {schedule : List Thread} {state : Counting}
    (consistent : Consistent schedule state) {self : Thread}
    (isInside : (state.workers self).IsInside) {worker : Worker}
    {commonVar : Nat}
    (own : ∀ loaded, worker.place = .store loaded → loaded = commonVar)
    (thread : Thread) (loaded : Nat)
    (isStore : (Function.update state.workers self worker thread).place =
      .store loaded) :
    loaded = commonVar := by
  by_cases same : thread = self
  · rw [same, Function.update_self] at isStore
    exact own loaded isStore
  · rw [Function.update_of_ne same] at isStore
    have otherInside : (state.workers thread).IsInside :=
      ⟨by simp [isStore], by simp [isStore]⟩
    exact absurd (consistent.guards.unique otherInside isInside) same

theorem inside_others (state : Counting) (self : Thread) (worker : Worker)
    (other : Thread) (different : other ≠ self) :
    (Function.update state.workers self worker other).IsInside ↔
      (state.workers other).IsInside := by
  rw [Function.update_of_ne different]

/-- A step between lock and unlock keeps the thread inside. -/
theorem Consistent.guards_inside {schedule : List Thread} {state : Counting}
    (consistent : Consistent schedule state) {self : Thread}
    (isInside : (state.workers self).IsInside) {worker : Worker}
    (stays : worker.IsInside) :
    Guards state.mutexVar fun thread =>
      (Function.update state.workers self worker thread).IsInside := by
  apply consistent.guards.stay
  intro other
  by_cases same : other = self
  · rw [same, Function.update_self]
    exact iff_of_true stays isInside
  · exact inside_others state self worker other same

theorem loopHead_cases {counter : Nat} (atMost : counter ≤ 65535) :
    loopHead counter = .lock ∧ counter ≠ 65535 ∨
      loopHead counter = .ended ∧ counter = 65535 := by
  rw [loopHead]
  split
  · exact Or.inl ⟨rfl, by omega⟩
  · exact Or.inr ⟨rfl, by omega⟩

section Steps

variable {schedule : List Thread} {state : Counting} {self : Thread}

theorem Consistent.lock (consistent : Consistent schedule state)
    (isLock : (state.workers self).place = .lock)
    (isFree : state.mutexVar = none) :
    Consistent (schedule ++ [self])
      { state with
        mutexVar := some self
        workers := Function.update state.workers self
          { state.workers self with place := .load } } := by
  obtain ⟨counted, atMost, _⟩ := consistent.sound self
  have goesOn := (consistent.sound self).counter_ne (by simp [isLock])
  apply consistent.update self
  · have guards := consistent.guards
    rw [isFree] at guards
    apply guards.lock
    · rw [Function.update_self]
      exact ⟨by simp, by simp⟩
    · exact inside_others state self _
  · rfl
  · intro thread loaded isStore
    by_cases same : thread = self
    · rw [same, Function.update_self] at isStore
      cases isStore
    · rw [Function.update_of_ne same] at isStore
      exact consistent.loaded thread loaded isStore
  · rw [isLock] at counted
    exact ⟨counted, atMost, by simpa using goesOn⟩
  · rw [Worker.rank, Worker.rank, isLock]
    dsimp only
    omega

theorem Consistent.load (consistent : Consistent schedule state)
    (isLoad : (state.workers self).place = .load) :
    Consistent (schedule ++ [self])
      { state with
        workers := Function.update state.workers self
          { state.workers self with place := .store state.commonVar } } := by
  obtain ⟨counted, atMost, _⟩ := consistent.sound self
  have isInside : (state.workers self).IsInside :=
    ⟨by simp [isLoad], by simp [isLoad]⟩
  have goesOn := (consistent.sound self).counter_ne isInside.2
  apply consistent.update self
  · exact consistent.guards_inside isInside ⟨by simp, by simp⟩
  · rfl
  · apply consistent.loaded_update isInside
    intro loaded isStore
    cases isStore
    rfl
  · rw [isLoad] at counted
    exact ⟨counted, atMost, by simpa using goesOn⟩
  · rw [Worker.rank, Worker.rank, isLoad]
    dsimp only
    omega

theorem Consistent.store (consistent : Consistent schedule state)
    {loaded : Nat} (isStore : (state.workers self).place = .store loaded) :
    Consistent (schedule ++ [self])
      { state with
        commonVar := loaded + 1
        workers := Function.update state.workers self
          { state.workers self with
            place := .unlock
            completed := (state.workers self).completed + 1 } } := by
  obtain ⟨counted, atMost, _⟩ := consistent.sound self
  have isInside : (state.workers self).IsInside :=
    ⟨by simp [isStore], by simp [isStore]⟩
  have goesOn := (consistent.sound self).counter_ne isInside.2
  apply consistent.update self
  · exact consistent.guards_inside isInside ⟨by simp, by simp⟩
  · rw [consistent.loaded self loaded isStore]
    dsimp only
    omega
  · apply consistent.loaded_update isInside
    intro other isOther
    cases isOther
  · rw [isStore] at counted
    refine ⟨?_, atMost, by simpa using goesOn⟩
    rw [counted]
    rfl
  · rw [Worker.rank, Worker.rank, isStore]
    dsimp only
    omega

/-- The counter goes up by one without wrapping, and the loop ends at its
limit. -/
theorem Consistent.unlock (consistent : Consistent schedule state)
    (isUnlock : (state.workers self).place = .unlock)
    {width : Nat} (wide : 65535 < 2 ^ width) :
    Consistent (schedule ++ [self])
      { state with
        mutexVar := none
        workers := Function.update state.workers self
          { state.workers self with
            place :=
              loopHead (((state.workers self).counter + 1) % 2 ^ width)
            counter :=
              ((state.workers self).counter + 1) % 2 ^ width } } := by
  obtain ⟨counted, atMost, _⟩ := consistent.sound self
  have isInside : (state.workers self).IsInside :=
    ⟨by simp [isUnlock], by simp [isUnlock]⟩
  have goesOn := (consistent.sound self).counter_ne isInside.2
  -- a uint16_t still holds 65535, where its loop ends
  have noWrap : ((state.workers self).counter + 1) % 2 ^ width =
      (state.workers self).counter + 1 :=
    Nat.mod_eq_of_lt (by omega)
  rw [noWrap]
  have stillAtMost : (state.workers self).counter + 1 ≤ 65535 := by
    omega
  have isHead := loopHead_cases stillAtMost
  apply consistent.update self
  · apply consistent.guards.unlock isInside
    · rw [Function.update_self, Worker.IsInside]
      rcases isHead with ⟨isLock, _⟩ | ⟨isEnded, _⟩
      · simp [isLock]
      · simp [isEnded]
    · exact inside_others state self _
  · rfl
  · apply consistent.loaded_update isInside
    intro loaded isStore
    rcases isHead with ⟨isLock, _⟩ | ⟨isEnded, _⟩
    · rw [isLock] at isStore
      cases isStore
    · rw [isEnded] at isStore
      cases isStore
  · rw [isUnlock, if_pos rfl] at counted
    rcases isHead with ⟨isLock, notLast⟩ | ⟨isEnded, isLast⟩
    · rw [isLock]
      exact ⟨counted, stillAtMost, by simpa using notLast⟩
    · rw [isEnded]
      exact ⟨counted, stillAtMost, by simpa using isLast⟩
  · rw [Worker.rank, Worker.rank, isUnlock]
    rcases isHead with ⟨isLock, notLast⟩ | ⟨isEnded, isLast⟩
    · rw [isLock]
      dsimp only
      omega
    · rw [isEnded]
      dsimp only
      omega

/-- Every step keeps the invariant. -/
theorem Consistent.countingLoop (consistent : Consistent schedule state)
    {width : Nat} (wide : 65535 < 2 ^ width) {next : Counting}
    (isStep : Ipc.countingLoop width self state = .ok next) :
    Consistent (schedule ++ [self]) next := by
  rw [Ipc.countingLoop] at isStep
  cases place : (state.workers self).place with
  | lock =>
      rw [place] at isStep
      dsimp only at isStep
      by_cases isFree : state.mutexVar = none
      · rw [if_pos isFree] at isStep
        rw [← Except.ok.inj isStep]
        exact consistent.lock place isFree
      · rw [if_neg isFree] at isStep
        cases isStep
  | load =>
      rw [place] at isStep
      rw [← Except.ok.inj isStep]
      exact consistent.load place
  | store loaded =>
      rw [place] at isStep
      rw [← Except.ok.inj isStep]
      exact consistent.store place
  | unlock =>
      rw [place] at isStep
      rw [← Except.ok.inj isStep]
      exact consistent.unlock place wide
  | ended =>
      rw [place] at isStep
      cases isStep

theorem Consistent.step (consistent : Consistent schedule state)
    {next : Counting}
    (isStep : countingStep state self = .ok (next, ())) :
    Consistent (schedule ++ [self]) next := by
  cases self with
  | calSum =>
      obtain ⟨stepped, isLoop, same⟩ := map_eq_ok_iff.mp isStep
      cases same
      exact consistent.countingLoop (by decide) isLoop
  | calSub =>
      obtain ⟨stepped, isLoop, same⟩ := map_eq_ok_iff.mp isStep
      cases same
      exact consistent.countingLoop (by decide) isLoop

end Steps

/-- The invariant holds after every schedule. -/
theorem consistent_after {schedule : List Thread} {state : Counting}
    (reached : countingAfter schedule = .ok state) :
    Consistent schedule state :=
  after_induction consistent_start
    (fun _ _ _ _ _ _ consistent isStep => consistent.step isStep) reached

/-! ## What follows -/

/-- A thread whose next step the mutex does not hold up can take it. -/
theorem exists_step {state : Counting} {thread : Thread}
    (notEnded : (state.workers thread).place ≠ .ended)
    (free : (state.workers thread).place = .lock → state.mutexVar = none) :
    ∃ next, countingStep state thread = .ok (next, ()) := by
  have steps (width : Nat) :
      ∃ next, countingLoop width thread state = .ok next := by
    rw [countingLoop]
    cases place : (state.workers thread).place with
    | lock =>
        exact ⟨_, if_pos (free place)⟩
    | load =>
        exact ⟨_, rfl⟩
    | store loaded =>
        exact ⟨_, rfl⟩
    | unlock =>
        exact ⟨_, rfl⟩
    | ended =>
        exact absurd place notEnded
  cases thread with
  | calSum =>
      obtain ⟨next, isStep⟩ := steps 32
      exact ⟨next, map_eq_ok_iff.mpr ⟨next, isStep, rfl⟩⟩
  | calSub =>
      obtain ⟨next, isStep⟩ := steps 16
      exact ⟨next, map_eq_ok_iff.mpr ⟨next, isStep, rfl⟩⟩

/-- The owner of the mutex can go on, and without one any thread can. -/
theorem Consistent.goesOn {schedule : List Thread} {state : Counting}
    (consistent : Consistent schedule state)
    (notEnded : ¬ state.BothEnded) :
    ∃ thread next, countingStep state thread = .ok (next, ()) := by
  cases owner : state.mutexVar with
  | none =>
      obtain ⟨thread, goesOn⟩ := Classical.not_forall.mp notEnded
      exact ⟨thread, exists_step goesOn fun _ => owner⟩
  | some thread =>
      have isInside := (consistent.guards thread).mpr owner
      exact ⟨thread, exists_step isInside.2 fun isLock =>
        absurd isLock isInside.1⟩

theorem Consistent.whole {schedule : List Thread} {state : Counting}
    (consistent : Consistent schedule state) (ended : state.BothEnded) :
    state.commonVar = 10 + 65535 + 65535 := by
  have completed (thread : Thread) :
      (state.workers thread).completed = 65535 := by
    have sound := consistent.sound thread
    have counted := sound.counted
    rw [ended thread, sound.ended.mp (ended thread)] at counted
    exact counted
  rw [consistent.sum, Counting.completed, total, completed, completed]

theorem Consistent.short {schedule : List Thread} {state : Counting}
    (consistent : Consistent schedule state) :
    schedule.length ≤ 2 * (4 * 65535) := by
  have rank := consistent.rank
  omega

/-- Some schedule lets both threads count to the end. -/
theorem exists_bothEnded :
    ∃ schedule state,
      countingAfter schedule = .ok state ∧ state.BothEnded := by
  apply exists_after_final
  · intro schedule state reached
    exact (consistent_after reached).short
  · intro schedule state reached notEnded
    obtain ⟨thread, next, isStep⟩ :=
      (consistent_after reached).goesOn notEnded
    exact ⟨thread, next, (), isStep⟩

/-- After every schedule the variable has the completed increments, one
thread at most is between lock and unlock, no counter has wrapped, and the
threads go on until both have counted to the end. -/
theorem counts_after {schedule : List Thread} {state : Counting}
    (reached : countingAfter schedule = .ok state) :
    Counts schedule state := by
  have consistent := consistent_after reached
  exact {
    sum := consistent.sum
    exclusive := fun _ _ firstInside secondInside =>
      consistent.guards.unique firstInside secondInside
    noWrap := fun thread =>
      ⟨(consistent.sound thread).counted, (consistent.sound thread).atMost⟩
    short := consistent.short
    goesOn := consistent.goesOn
    whole := consistent.whole }

theorem counts_after_firstIncrement :
    ∃ state,
      countingAfter [.calSum, .calSum, .calSum, .calSum, .calSub] =
          .ok state ∧
        state.commonVar = 11 ∧
          Counts [.calSum, .calSum, .calSum, .calSum, .calSub] state :=
  ⟨_, rfl, rfl, counts_after rfl⟩

end Esp32Source.Ipc
