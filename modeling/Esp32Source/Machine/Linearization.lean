import Esp32Source.Machine.History
import Mathlib.Algebra.BigOperators.Group.Finset.Piecewise
import Mathlib.Data.Multiset.AddSub

/-!
# Linearizations of concurrent calls

Several threads call operations of one object.  A trace records where the
calls begin and what they return where they end.  `Linearizes` reads a trace
as a sequential history of the object: each call takes effect at one moment
between its two ends, with the answer that it returns, and the calls stand in
the order of these moments.  A call that has not ended may have taken effect
or not.
-/

namespace Esp32Source.Machine

universe u v w x y

variable {Thread : Type u} {Call : Type v} {Reply : Type w} {State : Type x}
  {Failure : Type y}

/-- Where a thread stands: outside of the object, in a call that waits for its
effect, or in one that has its answer. -/
inductive Standing (Call : Type v) (Reply : Type w) where
  | outside
  | waiting (call : Call)
  | answered (reply : Reply)

/-- The ends of a call that can be seen. -/
inductive Traced (Thread : Type u) (Call : Type v) (Reply : Type w) where
  | enters (thread : Thread) (call : Call)
  | leaves (thread : Thread) (reply : Reply)

/-- The calls that began, the oldest first. -/
def entered (trace : List (Traced Thread Call Reply)) : List Call :=
  trace.filterMap fun
    | .enters _ call => some call
    | .leaves _ _ => none

theorem entered_concat_enters (trace : List (Traced Thread Call Reply))
    (thread : Thread) (call : Call) :
    entered (trace ++ [.enters thread call]) = entered trace ++ [call] :=
  List.filterMap_append

theorem entered_concat_leaves (trace : List (Traced Thread Call Reply))
    (thread : Thread) (reply : Reply) :
    entered (trace ++ [.leaves thread reply]) = entered trace := by
  simp [entered]

section Linearizes

variable [DecidableEq Thread]

/-- The calls of a trace can have taken effect in an order, which leaves the
threads and the object as they are given. -/
inductive Linearizes
    (handle : State → Call → Except Failure (State × Reply)) (start : State) :
    List (Traced Thread Call Reply) → List Call →
      (Thread → Standing Call Reply) → State → Prop where
  | start : Linearizes handle start [] [] (fun _ => .outside) start
  | enters {trace : List (Traced Thread Call Reply)} {order : List Call}
      {standing : Thread → Standing Call Reply} {state : State}
      {thread : Thread} (call : Call)
      (earlier : Linearizes handle start trace order standing state)
      (isOutside : standing thread = .outside) :
      Linearizes handle start (trace ++ [.enters thread call]) order
        (Function.update standing thread (.waiting call)) state
  | takesEffect {trace : List (Traced Thread Call Reply)} {order : List Call}
      {standing : Thread → Standing Call Reply} {state next : State}
      {thread : Thread} {call : Call} {reply : Reply}
      (earlier : Linearizes handle start trace order standing state)
      (waits : standing thread = .waiting call)
      (handled : handle state call = .ok (next, reply)) :
      Linearizes handle start trace (order ++ [call])
        (Function.update standing thread (.answered reply)) next
  | leaves {trace : List (Traced Thread Call Reply)} {order : List Call}
      {standing : Thread → Standing Call Reply} {state : State}
      {thread : Thread} {reply : Reply}
      (earlier : Linearizes handle start trace order standing state)
      (hasAnswer : standing thread = .answered reply) :
      Linearizes handle start (trace ++ [.leaves thread reply]) order
        (Function.update standing thread .outside) state

variable {handle : State → Call → Except Failure (State × Reply)}
  {start state : State} {trace : List (Traced Thread Call Reply)}
  {order : List Call} {standing : Thread → Standing Call Reply}

/-- The order is a history of the object that leads to the given state. -/
theorem Linearizes.after_eq
    (linearizes : Linearizes handle start trace order standing state) :
    after handle start order = .ok state := by
  induction linearizes with
  | start => exact after_nil
  | enters call earlier isOutside inductionHypothesis =>
      exact inductionHypothesis
  | takesEffect earlier waits handled inductionHypothesis =>
      exact after_concat_of_ok inductionHypothesis handled
  | leaves earlier hasAnswer inductionHypothesis =>
      exact inductionHypothesis

end Linearizes

/-! ## No call is lost or taken twice -/

/-- The call that a thread waits for. -/
def Standing.waits : Standing Call Reply → Multiset Call
  | .waiting call => {call}
  | .outside | .answered _ => 0

section Counted

variable [DecidableEq Thread] [Fintype Thread]
  {handle : State → Call → Except Failure (State × Reply)}
  {start state : State} {trace : List (Traced Thread Call Reply)}
  {order : List Call} {standing : Thread → Standing Call Reply}

/-- The calls that the threads wait for. -/
def allWaiting (standing : Thread → Standing Call Reply) : Multiset Call :=
  ∑ thread, (standing thread).waits

/-- When one thread moves, its own call is exchanged. -/
theorem allWaiting_update (standing : Thread → Standing Call Reply)
    (thread : Thread) (moved : Standing Call Reply) :
    allWaiting (Function.update standing thread moved) +
        (standing thread).waits =
      allWaiting standing + moved.waits := by
  have moves :
      (fun other => (Function.update standing thread moved other).waits) =
        Function.update (fun other => (standing other).waits) thread
          moved.waits := by
    funext other
    exact Function.apply_update (fun _ => Standing.waits) standing thread
      moved other
  have isMember : thread ∈ (Finset.univ : Finset Thread) :=
    Finset.mem_univ thread
  rw [allWaiting, allWaiting, moves,
    Finset.sum_update_of_mem isMember,
    Finset.sum_eq_add_sum_sdiff_singleton_of_mem isMember]
  ac_rfl

/-- The calls that began are those that took effect and those that wait. -/
theorem Linearizes.order_add_waiting
    (linearizes : Linearizes handle start trace order standing state) :
    (order : Multiset Call) + allWaiting standing = entered trace := by
  induction linearizes with
  | start => simp [allWaiting, Standing.waits, entered]
  | @enters trace order standing state thread call earlier isOutside
      inductionHypothesis =>
      have moved := allWaiting_update standing thread (.waiting call)
      rw [isOutside] at moved
      simp only [Standing.waits, add_zero] at moved
      rw [moved, ← add_assoc, inductionHypothesis, entered_concat_enters,
        ← Multiset.coe_add, Multiset.coe_singleton]
  | @takesEffect trace order standing state next thread call reply earlier
      waits handled inductionHypothesis =>
      have moved := allWaiting_update standing thread (.answered reply)
      rw [waits] at moved
      simp only [Standing.waits, add_zero] at moved
      rw [← inductionHypothesis, ← moved, ← Multiset.coe_add,
        Multiset.coe_singleton]
      ac_rfl
  | @leaves trace order standing state thread reply earlier hasAnswer
      inductionHypothesis =>
      have moved := allWaiting_update standing thread .outside
      rw [hasAnswer] at moved
      simp only [Standing.waits, add_zero] at moved
      rw [moved, inductionHypothesis, entered_concat_leaves]

/-- When every thread is outside, the order holds every call once. -/
theorem Linearizes.perm_entered
    (linearizes : Linearizes handle start trace order standing state)
    (isQuiet : ∀ thread, standing thread = .outside) :
    order.Perm (entered trace) := by
  have counted := linearizes.order_add_waiting
  have noneWaits : allWaiting standing = 0 :=
    Finset.sum_eq_zero fun thread _ => by rw [isQuiet thread]; rfl
  rw [noneWaits, add_zero] at counted
  exact Multiset.coe_eq_coe.mp counted

end Counted

end Esp32Source.Machine
