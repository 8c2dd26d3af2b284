import Mathlib.Data.List.Basic

/-!
# Queues of bounded capacity

A queue that drops what arrives while it is full, and remembers that it did.
It also remembers what was accepted and what was taken since it was last
flushed; that the elements come out in the order in which they went in, each
of them once, is part of the structure.
-/

namespace Esp32Source.Machine

universe u

structure Fifo (α : Type u) where
  accepted : List α
  taken : List α
  queue : List α
  dropped : Bool
  order : accepted = taken ++ queue

namespace Fifo

variable {α : Type u}

/-- A queue that was created or flushed. -/
def empty : Fifo α where
  accepted := []
  taken := []
  queue := []
  dropped := false
  order := rfl

/-- An element arrives. -/
def receive (capacity : Nat) (fifo : Fifo α) (element : α) : Fifo α :=
  if fifo.queue.length = capacity then { fifo with dropped := true }
  else
    { fifo with
      accepted := fifo.accepted ++ [element]
      queue := fifo.queue ++ [element]
      order := by rw [fifo.order, List.append_assoc] }

/-- The oldest element is taken out. -/
def take (fifo : Fifo α) : Fifo α × Option α :=
  match shape : fifo.queue with
  | [] => (fifo, none)
  | element :: rest =>
      ({ fifo with
          taken := fifo.taken ++ [element]
          queue := rest
          order := by
            rw [fifo.order, shape, List.append_assoc,
              List.singleton_append] },
        some element)

theorem receive_full {capacity : Nat} {fifo : Fifo α}
    (full : fifo.queue.length = capacity) (element : α) :
    fifo.receive capacity element = { fifo with dropped := true } :=
  if_pos full

theorem queue_receive {capacity : Nat} {fifo : Fifo α}
    (room : fifo.queue.length ≠ capacity) (element : α) :
    (fifo.receive capacity element).queue = fifo.queue ++ [element] ∧
      (fifo.receive capacity element).dropped = fifo.dropped := by
  rw [receive, if_neg room]
  exact ⟨rfl, rfl⟩

theorem accepted_receive {capacity : Nat} {fifo : Fifo α}
    (room : fifo.queue.length ≠ capacity) (element : α) :
    (fifo.receive capacity element).accepted = fifo.accepted ++ [element] ∧
      (fifo.receive capacity element).taken = fifo.taken := by
  rw [receive, if_neg room]
  exact ⟨rfl, rfl⟩

theorem queue_take {fifo : Fifo α} {element : α} {rest : List α}
    (shape : fifo.queue = element :: rest) :
    fifo.take.1.queue = rest ∧ fifo.take.1.dropped = fifo.dropped ∧
      fifo.take.2 = some element := by
  rw [take]
  split
  · rename_i isEmpty
    rw [isEmpty] at shape
    cases shape
  · rename_i other others same
    rw [same] at shape
    injection shape with isElement isRest
    exact ⟨isRest, rfl, congrArg some isElement⟩

theorem taken_take {fifo : Fifo α} {element : α} {rest : List α}
    (shape : fifo.queue = element :: rest) :
    fifo.take.1.taken = fifo.taken ++ [element] ∧
      fifo.take.1.accepted = fifo.accepted := by
  rw [take]
  split
  · rename_i isEmpty
    rw [isEmpty] at shape
    cases shape
  · rename_i other others same
    rw [same] at shape
    injection shape with isElement _
    exact ⟨congrArg (fun last => fifo.taken ++ [last]) isElement, rfl⟩

theorem take_empty {fifo : Fifo α} (isEmpty : fifo.queue = []) :
    fifo.take = (fifo, none) := by
  rw [take]
  split
  · rfl
  · rename_i same
    rw [isEmpty] at same
    cases same

/-- An arrival is remembered as dropped when the queue is full. -/
theorem dropped_receive_iff (capacity : Nat) (fifo : Fifo α) (element : α) :
    (fifo.receive capacity element).dropped = true ↔
      fifo.queue.length = capacity ∨ fifo.dropped = true := by
  by_cases full : fifo.queue.length = capacity
  · rw [receive_full full]
    exact iff_of_true rfl (Or.inl full)
  · rw [(queue_receive full element).2, or_iff_right full]

theorem dropped_take (fifo : Fifo α) :
    fifo.take.1.dropped = fifo.dropped := by
  cases queue : fifo.queue with
  | nil => rw [take_empty queue]
  | cons element rest => exact (queue_take queue).2.1

end Fifo

end Esp32Source.Machine
