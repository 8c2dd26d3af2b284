import Esp32Source.Memory.CString
import Esp32Source.Machine.History

/-!
# Programs that share a message queue

Four programs use the System V queue of one key.  The senders are
`callMsgQueue` of `clientSocket.c` and `main` of `sendMsgProcess.c`, the
receivers `messageQueue` of `thread.c` and `main` of `recvMsgProcess.c`.  None
of them branches on the result of a call, so each is a straight list of calls.

The kernel keeps at most one queue for the key.  `IPC_RMID` discards it with
its messages, and the next `msgget` creates another one under a new
identifier.  A receiver in an empty queue is blocked: scheduling it changes
nothing.  So is a sender in a full one, which is why the size of the queue
does not appear.

The texts for which `msgsnd` succeeded and those that `msgrcv` took out are
recorded beside the queue.
-/

namespace Esp32Source.Ipc

open Memory Machine

structure Queue where
  id : Nat
  messages : List (List UInt8)
  deriving DecidableEq, Repr

structure Kernel where
  queue : Option Queue
  nextId : Nat
  sent : List (List UInt8)
  taken : List (Nat × List UInt8)
  deriving DecidableEq, Repr

/-- The calls of the programs; `print` is the line that shows a received
text. -/
inductive Instruction where
  | msgget
  | msgsnd (text : List UInt8)
  | msgrcv
  | print
  | rmid
  deriving DecidableEq, Repr

/-- A running program: its remaining calls, the queue it got, the text in its
`message`, and whether a `msgrcv` has succeeded. -/
structure Process where
  todo : List Instruction
  msgId : Nat
  message : List UInt8
  received : Bool
  deriving DecidableEq, Repr

/-! ## The programs -/

inductive Program where
  | callMsgQueue (text : List UInt8)
  | sendMsgProcess (text : List UInt8)
  /-- `message` is a local array: it holds what the stack held. -/
  | messageQueue (stack : List UInt8)
  | recvMsgProcess
  deriving DecidableEq, Repr

def Program.calls : Program → List Instruction
  | .callMsgQueue text => [.msgget, .msgsnd text, .rmid]
  | .sendMsgProcess text => [.msgget, .msgsnd text]
  | .messageQueue _ => [.msgget, .msgrcv, .print, .rmid]
  | .recvMsgProcess => [.msgget, .msgrcv, .print, .rmid]

/-- The text in `message` before anything is received. -/
def Program.initialMessage : Program → List UInt8
  | .callMsgQueue text => text
  | .sendMsgProcess text => text
  | .messageQueue stack => stack
  | .recvMsgProcess => []

def Program.start (program : Program) : Process where
  todo := program.calls
  msgId := 0
  message := program.initialMessage
  received := false

/-! ## The calls -/

/-- The queue of the identifier, unless it was removed. -/
def Kernel.find (kernel : Kernel) (id : Nat) : Option Queue :=
  kernel.queue.filter fun queue => queue.id = id

/-- The messages that wait in the queue. -/
def Kernel.pending (kernel : Kernel) : List (List UInt8) :=
  match kernel.queue with
  | some queue => queue.messages
  | none => []

/-- One call of the process `pid`: the kernel and the process afterwards and
the printed text, or `none` while the call is blocked. -/
def execute (kernel : Kernel) (pid : Nat) (process : Process) :
    Instruction → Option (Kernel × Process × Option (List UInt8))
  | .msgget =>
      match kernel.queue with
      | some queue =>
          some (kernel, { process with msgId := queue.id }, none)
      | none =>
          some ({ kernel with
                  queue := some { id := kernel.nextId, messages := [] },
                  nextId := kernel.nextId + 1 },
            { process with msgId := kernel.nextId }, none)
  | .msgsnd text =>
      match kernel.find process.msgId with
      | some queue =>
          some ({ kernel with
                  queue := some { queue with
                    messages := queue.messages ++ [text] },
                  sent := kernel.sent ++ [text] },
            process, none)
      | none => some (kernel, process, none)
  | .msgrcv =>
      match kernel.find process.msgId with
      | some { id, messages := text :: messages } =>
          some ({ kernel with
                  queue := some { id, messages },
                  taken := kernel.taken ++ [(pid, text)] },
            { process with message := text, received := true }, none)
      | some { messages := [], .. } => none
      | none => some (kernel, process, none)
  | .print => some (kernel, process, some process.message)
  | .rmid =>
      match kernel.find process.msgId with
      | some _ => some ({ kernel with queue := none }, process, none)
      | none => some (kernel, process, none)

/-! ## The system -/

structure System where
  kernel : Kernel
  processes : List Process

/-- The process `pid` makes its next call, unless it is blocked or has ended;
the output is the text that it prints. -/
def System.step (system : System) (pid : Nat) :
    System × Option (List UInt8) :=
  match system.processes[pid]? with
  | none => (system, none)
  | some process =>
      match process.todo with
      | [] => (system, none)
      | instruction :: todo =>
          match execute system.kernel pid process instruction with
          | none => (system, none)
          | some (kernel, process, printed) =>
              ({ kernel,
                 processes :=
                  system.processes.set pid { process with todo } },
                printed)

def Kernel.empty : Kernel where
  queue := none
  nextId := 1
  sent := []
  taken := []

def System.start (programs : List Program) : System where
  kernel := Kernel.empty
  processes := programs.map Program.start

/-- The system after a schedule: which process makes a call, one after the
other. -/
def systemAfter (programs : List Program) (schedule : List Nat) : System :=
  final System.step (System.start programs) schedule

/-- The call that the process makes next. -/
def System.next (system : System) (pid : Nat) :
    Option (Process × Instruction) :=
  match system.processes[pid]? with
  | none => none
  | some process => process.todo.head?.map fun call => (process, call)

/-! ## What a step can do -/

theorem Kernel.find_eq_some_iff {kernel : Kernel} {id : Nat}
    {queue : Queue} :
    kernel.find id = some queue ↔
      kernel.queue = some queue ∧ queue.id = id := by
  simp [Kernel.find, Option.filter_eq_some_iff]

/-- What a call other than `IPC_RMID` does to the texts: nothing, one more is
sent, or the first one that waits is taken. -/
inductive Moves (kernel next : Kernel) (pid : Nat) : Prop
  | idle (sent : next.sent = kernel.sent) (taken : next.taken = kernel.taken)
      (pending : next.pending = kernel.pending)
  | sends (text : List UInt8) (sent : next.sent = kernel.sent ++ [text])
      (taken : next.taken = kernel.taken)
      (pending : next.pending = kernel.pending ++ [text])
  | takes (text : List UInt8) (sent : next.sent = kernel.sent)
      (taken : next.taken = kernel.taken ++ [(pid, text)])
      (pending : kernel.pending = text :: next.pending)

theorem Kernel.pending_of_find {kernel : Kernel} {id : Nat} {queue : Queue}
    (found : kernel.find id = some queue) :
    kernel.pending = queue.messages := by
  rw [Kernel.pending, (Kernel.find_eq_some_iff.mp found).1]

theorem execute_moves {kernel next : Kernel} {pid : Nat}
    {process after : Process} {call : Instruction}
    {printed : Option (List UInt8)} (keeps : call ≠ .rmid)
    (executed : execute kernel pid process call =
      some (next, after, printed)) :
    Moves kernel next pid := by
  cases call with
  | rmid =>
      exact absurd rfl keeps
  | print =>
      cases executed
      exact .idle rfl rfl rfl
  | msgget =>
      rw [execute] at executed
      cases queue : kernel.queue with
      | some queue =>
          rw [queue] at executed
          cases executed
          exact .idle rfl rfl rfl
      | none =>
          rw [queue] at executed
          cases executed
          refine .idle rfl rfl ?_
          rw [Kernel.pending, Kernel.pending, queue]
  | msgsnd text =>
      rw [execute] at executed
      cases found : kernel.find process.msgId with
      | some queue =>
          rw [found] at executed
          cases executed
          refine .sends text rfl rfl ?_
          rw [Kernel.pending_of_find found]
          rfl
      | none =>
          rw [found] at executed
          cases executed
          exact .idle rfl rfl rfl
  | msgrcv =>
      rw [execute] at executed
      cases found : kernel.find process.msgId with
      | none =>
          rw [found] at executed
          cases executed
          exact .idle rfl rfl rfl
      | some queue =>
          have waiting := Kernel.pending_of_find found
          cases queue with
          | mk id messages =>
              cases messages with
              | nil =>
                  rw [found] at executed
                  cases executed
              | cons text messages =>
                  rw [found] at executed
                  cases executed
                  exact .takes text rfl rfl waiting

/-- `IPC_RMID` leaves the texts alone when the queue is gone, and discards
those that wait otherwise. -/
theorem execute_rmid (kernel : Kernel) (pid : Nat) (process : Process) :
    ∃ next, execute kernel pid process .rmid = some (next, process, none) ∧
      next.sent = kernel.sent ∧ next.taken = kernel.taken ∧
      (kernel.find process.msgId = none → next.pending = kernel.pending) ∧
      ∀ queue, kernel.find process.msgId = some queue →
        next.pending = [] := by
  rw [execute]
  cases found : kernel.find process.msgId with
  | none =>
      exact ⟨kernel, rfl, rfl, rfl, fun _ => rfl, nofun⟩
  | some queue =>
      exact ⟨_, rfl, rfl, rfl, nofun, fun _ _ => rfl⟩

/-- Only a `msgrcv` is ever blocked. -/
theorem execute_eq_none {kernel : Kernel} {pid : Nat} {process : Process}
    {call : Instruction}
    (blocked : execute kernel pid process call = none) : call = .msgrcv := by
  cases call with
  | msgrcv => rfl
  | msgget =>
      rw [execute] at blocked
      cases queue : kernel.queue <;> rw [queue] at blocked <;> cases blocked
  | msgsnd text =>
      rw [execute] at blocked
      cases found : kernel.find process.msgId <;> rw [found] at blocked <;>
        cases blocked
  | print => cases blocked
  | rmid =>
      rw [execute] at blocked
      cases found : kernel.find process.msgId <;> rw [found] at blocked <;>
        cases blocked

/-- A step changes nothing, because the process is blocked in `msgrcv` or is
not running, or is one call of the process that is scheduled. -/
theorem System.step_cases (system : System) (pid : Nat) :
    (system.step pid = (system, none) ∧
        ∀ process call, system.next pid = some (process, call) →
          call = .msgrcv) ∨
      ∃ process call todo kernel after printed,
        system.processes[pid]? = some process ∧
          system.next pid = some (process, call) ∧
          execute system.kernel pid process call =
            some (kernel, after, printed) ∧
          system.step pid =
            ({ kernel,
               processes :=
                system.processes.set pid { after with todo } },
              printed) := by
  rw [System.step, System.next]
  cases scheduled : system.processes[pid]? with
  | none =>
      exact Or.inl ⟨rfl, nofun⟩
  | some process =>
      dsimp only
      cases remaining : process.todo with
      | nil =>
          exact Or.inl ⟨rfl, nofun⟩
      | cons call todo =>
          dsimp only
          cases executed : execute system.kernel pid process call with
          | none =>
              refine Or.inl ⟨rfl, ?_⟩
              intro other otherCall isNext
              cases isNext
              exact execute_eq_none executed
          | some result =>
              obtain ⟨kernel, after, printed⟩ := result
              exact Or.inr ⟨process, call, todo, kernel, after, printed, rfl,
                rfl, executed, rfl⟩

end Esp32Source.Ipc
