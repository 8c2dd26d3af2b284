import Esp32Source.Memory.CString

/-!
# Queues of FreeRTOS

The queue functions are not part of the repository.  They are a parameter, with
their documented behaviour stated on what a queue holds: copies of up to
`length` items of `itemSize` bytes, which come out in the order in which they
went in.
-/

namespace Esp32Source.Timer

open Memory

/-- The functions that the programs call.  `xQueueCreate` may find no memory,
`xQueueSendFromISR` also says whether a task was woken, and `xQueueReceive`
gives nothing where the caller has to wait. -/
structure Queues (Queue : Type) where
  xQueueCreate (length itemSize : Nat) : Option Queue
  xQueueSendFromISR (queue : Queue) (bytes : List UInt8) : Queue × Bool
  xQueueReceive (queue : Queue) : Option (List UInt8 × Queue)

/-- What a queue holds. -/
structure QueueView where
  length : Nat
  itemSize : Nat
  items : List (List UInt8)
  deriving DecidableEq, Repr

/-- An item is copied behind the others, unless the queue is full, and the
first one is received. -/
structure Queues.Documented {Queue : Type} (queues : Queues Queue)
    (view : Queue → QueueView) : Prop where
  created : ∀ length itemSize queue,
    queues.xQueueCreate length itemSize = some queue →
      view queue = { length, itemSize, items := [] }
  sent : ∀ queue bytes,
    (view queue).itemSize ≤ bytes.length →
      (view queue).items.length < (view queue).length →
        view (queues.xQueueSendFromISR queue bytes).1 = { view queue with
          items :=
            (view queue).items ++ [bytes.take (view queue).itemSize] }
  full : ∀ queue bytes,
    (view queue).length ≤ (view queue).items.length →
      view (queues.xQueueSendFromISR queue bytes).1 = view queue
  received : ∀ queue item rest,
    (view queue).items = item :: rest →
      ∃ next, queues.xQueueReceive queue = some (item, next) ∧
        view next = { view queue with items := rest }
  empty : ∀ queue,
    (view queue).items = [] → queues.xQueueReceive queue = none

/-- What a variable of the type `QueueHandle_t` leads to. -/
inductive QueueHandle (Queue : Type) where
  | null
  | live (queue : Queue)
  | deleted

def QueueHandle.use {Queue : Type} :
    QueueHandle Queue → Except Fault Queue
  | .null => .error .nullPointer
  | .live queue => .ok queue
  | .deleted => .error .deadBlock

/-! ## A queue that is a list -/

def listCreate (length itemSize : Nat) : Option QueueView :=
  some { length, itemSize, items := [] }

def listSend (queue : QueueView) (bytes : List UInt8) : QueueView × Bool :=
  if queue.items.length < queue.length then
    ({ queue with items := queue.items ++ [bytes.take queue.itemSize] },
      true)
  else (queue, false)

def listReceive (queue : QueueView) : Option (List UInt8 × QueueView) :=
  match queue.items with
  | [] => none
  | item :: rest => some (item, { queue with items := rest })

def listQueues : Queues QueueView where
  xQueueCreate := listCreate
  xQueueSendFromISR := listSend
  xQueueReceive := listReceive

theorem listQueues_documented : listQueues.Documented id where
  created := by
    intro length itemSize queue created
    exact (Option.some_inj.mp created).symm
  sent := by
    intro queue bytes _ room
    exact congrArg Prod.fst (if_pos room)
  full := by
    intro queue bytes full
    exact congrArg Prod.fst (if_neg (Nat.not_lt.mpr full))
  received := by
    intro queue item rest items
    refine ⟨{ queue with items := rest }, ?_, rfl⟩
    change listReceive queue = _
    rw [listReceive, show queue.items = item :: rest from items]
  empty := by
    intro queue items
    change listReceive queue = _
    rw [listReceive, show queue.items = [] from items]

end Esp32Source.Timer
