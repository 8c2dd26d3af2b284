import Esp32Source.Ipc.MessageQueue

/-!
# Conservation of messages

A text that was sent has been taken out or waits in the queue.  Every call
keeps this but `IPC_RMID`, which destroys the texts that wait.  The programs
remove the queue without looking: `callMsgQueue` behind its own `msgsnd`, the
receivers behind their first message.

A receiver prints `message` whether or not its `msgrcv` has stored anything
there.  What it prints was received exactly when that call succeeded.
-/

namespace Esp32Source.Ipc

open Memory Machine

/-- Every sent text was taken out by one `msgrcv` or waits in the queue. -/
def Conserved (kernel : Kernel) : Prop :=
  kernel.sent.Perm (kernel.taken.map Prod.snd ++ kernel.pending)

def ConservedAfter (programs : List Program) (schedule : List Nat) : Prop :=
  Conserved (systemAfter programs schedule).kernel

/-- What the process prints in this step is a text that it took out. -/
def PrintsReceived (programs : List Program) (front : List Nat)
    (pid : Nat) : Prop :=
  ∀ text, ((systemAfter programs front).step pid).2 = some text →
    (pid, text) ∈ (systemAfter programs front).kernel.taken

/-- If the step removes a queue, no message waits in it. -/
def RemovesEmpty (programs : List Program) (front : List Nat) (pid : Nat) :
    Prop :=
  ∀ process, (systemAfter programs front).next pid = some (process, .rmid) →
    ∀ queue,
      (systemAfter programs front).kernel.find process.msgId = some queue →
        queue.messages = []

/-- If the step prints a text, the `msgrcv` of the process has succeeded. -/
def PrintsAfterSuccess (programs : List Program) (front : List Nat)
    (pid : Nat) : Prop :=
  ∀ process, (systemAfter programs front).next pid = some (process, .print) →
    process.received = true

/-! ## Texts -/

theorem Moves.conserved_iff {kernel next : Kernel} {pid : Nat}
    (moves : Moves kernel next pid) :
    Conserved next ↔ Conserved kernel := by
  unfold Conserved
  cases moves with
  | idle sent taken pending =>
      rw [sent, taken, pending]
  | sends text sent taken pending =>
      rw [sent, taken, pending, ← List.append_assoc,
        List.perm_append_right_iff]
  | takes text sent taken pending =>
      rw [sent, taken, pending, List.map_append, List.append_assoc]
      rfl

/-- Where no text has been lost, none is left when nothing waits. -/
theorem conserved_of_discarded_iff {kernel next : Kernel}
    (sent : next.sent = kernel.sent) (taken : next.taken = kernel.taken)
    (pending : next.pending = []) (conserved : Conserved kernel) :
    Conserved next ↔ kernel.pending = [] := by
  unfold Conserved at conserved ⊢
  rw [sent, taken, pending, List.append_nil]
  constructor
  · intro allTaken
    have before := conserved.length_eq
    have after := allTaken.length_eq
    rw [List.length_append] at before
    apply List.eq_nil_of_length_eq_zero
    omega
  · intro nothingWaits
    rw [nothingWaits, List.append_nil] at conserved
    exact conserved

/-- A step keeps all texts exactly when it removes no queue with messages. -/
theorem conserved_step_iff {programs : List Program} {front : List Nat}
    (pid : Nat)
    (conserved : Conserved (systemAfter programs front).kernel) :
    Conserved ((systemAfter programs front).step pid).1.kernel ↔
      RemovesEmpty programs front pid := by
  unfold RemovesEmpty
  rcases System.step_cases (systemAfter programs front) pid with
    ⟨unchanged, waits⟩ |
      ⟨process, call, todo, kernel, after, printed, _, isNext, executed,
        stepped⟩
  · rw [unchanged]
    refine iff_of_true conserved ?_
    intro process isRmid
    have receives := waits process _ isRmid
    cases receives
  · rw [stepped, isNext]
    dsimp only
    by_cases removes : call = .rmid
    · subst removes
      obtain ⟨next, executedRmid, sent, taken, keeps, discards⟩ :=
        execute_rmid (systemAfter programs front).kernel pid process
      rw [executedRmid] at executed
      cases executed
      cases found : (systemAfter programs front).kernel.find process.msgId
        with
      | none =>
          refine iff_of_true ?_ ?_
          · unfold Conserved
            rw [sent, taken, keeps found]
            exact conserved
          · intro other same queue otherFound
            cases same
            rw [found] at otherFound
            cases otherFound
      | some queue =>
          rw [conserved_of_discarded_iff sent taken (discards queue found)
            conserved, Kernel.pending_of_find found]
          constructor
          · intro empty other same otherQueue otherFound
            cases same
            rw [found] at otherFound
            cases otherFound
            exact empty
          · intro removesEmpty
            exact removesEmpty process rfl queue found
    · rw [(execute_moves removes executed).conserved_iff]
      refine iff_of_true conserved ?_
      intro other same
      injection same with pair
      injection pair with _ isRmid
      exact absurd isRmid removes

/-! ## Prints -/

/-- A process has taken out the text in its `message`, or nothing at all while
no `msgrcv` of it has succeeded. -/
def Recorded (taken : List (Nat × List UInt8)) (pid : Nat)
    (process : Process) : Prop :=
  if process.received then (pid, process.message) ∈ taken
  else ∀ text, (pid, text) ∉ taken

/-- A call keeps the record of its own process, and adds nothing to that of
another. -/
theorem execute_recorded {kernel next : Kernel} {pid : Nat}
    {process after : Process} {call : Instruction}
    {printed : Option (List UInt8)}
    (executed : execute kernel pid process call =
      some (next, after, printed))
    (recorded : Recorded kernel.taken pid process) :
    Recorded next.taken pid after ∧
      ∀ other text, other ≠ pid →
        ((other, text) ∈ next.taken ↔ (other, text) ∈ kernel.taken) := by
  cases call with
  | print =>
      cases executed
      exact ⟨recorded, fun _ _ _ => Iff.rfl⟩
  | msgget =>
      rw [execute] at executed
      cases queue : kernel.queue <;> rw [queue] at executed <;>
        cases executed <;>
        exact ⟨recorded, fun _ _ _ => Iff.rfl⟩
  | msgsnd text =>
      rw [execute] at executed
      cases found : kernel.find process.msgId <;> rw [found] at executed <;>
        cases executed <;>
        exact ⟨recorded, fun _ _ _ => Iff.rfl⟩
  | rmid =>
      rw [execute] at executed
      cases found : kernel.find process.msgId <;> rw [found] at executed <;>
        cases executed <;>
        exact ⟨recorded, fun _ _ _ => Iff.rfl⟩
  | msgrcv =>
      rw [execute] at executed
      split at executed
      · cases executed
        refine ⟨?_, ?_⟩
        · rw [Recorded, if_pos rfl]
          exact List.mem_append_right _ List.mem_cons_self
        · intro other text different
          simp [different]
      · cases executed
      · cases executed
        exact ⟨recorded, fun _ _ _ => Iff.rfl⟩

theorem recorded_iff_of_same {taken before : List (Nat × List UInt8)}
    {pid : Nat} {process : Process}
    (same : ∀ text, (pid, text) ∈ taken ↔ (pid, text) ∈ before) :
    Recorded taken pid process ↔ Recorded before pid process := by
  simp only [Recorded, same]

/-- The record of every process agrees with what it has taken. -/
def AllRecorded (system : System) : Prop :=
  ∀ pid process, system.processes[pid]? = some process →
    Recorded system.kernel.taken pid process

theorem AllRecorded.step {system : System} (recorded : AllRecorded system)
    (pid : Nat) : AllRecorded (system.step pid).1 := by
  rcases System.step_cases system pid with
    ⟨unchanged, _⟩ |
      ⟨process, call, todo, kernel, after, printed, scheduled, _, executed,
        stepped⟩
  · rw [unchanged]
    exact recorded
  · obtain ⟨own, others⟩ :=
      execute_recorded executed (recorded pid process scheduled)
    rw [stepped]
    intro other otherProcess isOther
    dsimp only at isOther ⊢
    rw [List.getElem?_set] at isOther
    by_cases same : pid = other
    · rw [if_pos same] at isOther
      split at isOther
      · cases isOther
        rw [← same]
        exact own
      · cases isOther
    · rw [if_neg same] at isOther
      rw [recorded_iff_of_same fun text => others other text (Ne.symm same)]
      exact recorded other otherProcess isOther

theorem systemAfter_recorded (programs : List Program)
    (schedule : List Nat) : AllRecorded (systemAfter programs schedule) := by
  induction schedule using List.reverseRecOn with
  | nil =>
      intro pid process isProcess
      change (programs.map Program.start)[pid]? = some process at isProcess
      rw [List.getElem?_map] at isProcess
      obtain ⟨program, _, rfl⟩ := Option.map_eq_some_iff.mp isProcess
      rw [Recorded, Program.start, if_neg Bool.false_ne_true]
      exact fun text member => nomatch member
  | append_singleton schedule pid inductionHypothesis =>
      rw [systemAfter, final_concat]
      exact inductionHypothesis.step pid

theorem execute_prints {kernel next : Kernel} {pid : Nat}
    {process after : Process} {call : Instruction} {text : List UInt8}
    (executed : execute kernel pid process call =
      some (next, after, some text)) :
    call = .print ∧ text = process.message := by
  cases call with
  | print =>
      cases executed
      exact ⟨rfl, rfl⟩
  | msgget =>
      rw [execute] at executed
      split at executed <;> cases executed
  | msgsnd sent =>
      rw [execute] at executed
      split at executed <;> cases executed
  | rmid =>
      rw [execute] at executed
      split at executed <;> cases executed
  | msgrcv =>
      rw [execute] at executed
      split at executed <;> cases executed

/-- A step prints a text that was taken out exactly when the `msgrcv` of its
process has succeeded. -/
theorem printsReceived_iff {programs : List Program} (front : List Nat)
    (pid : Nat) :
    PrintsReceived programs front pid ↔
      PrintsAfterSuccess programs front pid := by
  unfold PrintsReceived PrintsAfterSuccess
  rcases System.step_cases (systemAfter programs front) pid with
    ⟨unchanged, waits⟩ |
      ⟨process, call, todo, kernel, after, printed, scheduled, isNext,
        executed, stepped⟩
  · rw [unchanged]
    refine iff_of_true nofun ?_
    intro process isPrint
    have receives := waits process _ isPrint
    cases receives
  · have recorded :=
      systemAfter_recorded programs front pid process scheduled
    rw [stepped, isNext]
    by_cases prints : call = .print
    · subst prints
      cases executed
      rw [Recorded] at recorded
      cases success : process.received with
      | true =>
          rw [success, if_pos rfl] at recorded
          refine iff_of_true ?_ ?_
          · intro text isText
            cases isText
            exact recorded
          · intro other same
            cases same
            exact success
      | false =>
          rw [success, if_neg Bool.false_ne_true] at recorded
          refine iff_of_false ?_ ?_
          · intro received
            exact recorded process.message (received process.message rfl)
          · intro succeeds
            have succeeded := succeeds process rfl
            rw [success] at succeeded
            cases succeeded
    · refine iff_of_true ?_ ?_
      · intro text isText
        dsimp only at isText
        rw [isText] at executed
        exact absurd (execute_prints executed).1 prints
      · intro other same
        injection same with pair
        injection pair with _ isPrint
        exact absurd isPrint prints

/-! ## Runs -/

/-- For any programs and every schedule: no text is lost or taken twice, and
every printed text was received, exactly when no queue is removed with
messages in it and no receiver prints after a `msgrcv` that failed. -/
theorem messages_conserved_iff (programs : List Program)
    (schedule : List Nat) :
    (AtEveryState (ConservedAfter programs) schedule ∧
        AtEveryStep (PrintsReceived programs) schedule) ↔
      AtEveryStep (fun front pid =>
        RemovesEmpty programs front pid ∧
          PrintsAfterSuccess programs front pid) schedule := by
  rw [atEveryStep_and_iff]
  have texts :
      AtEveryState (ConservedAfter programs) schedule ↔
        AtEveryStep (RemovesEmpty programs) schedule := by
    refine atEveryState_iff_atEveryStep (fun _ => True) ?_ ?_
      (fun _ _ => trivial)
    · exact List.Perm.refl _
    · intro front pid _ _ conserved
      rw [ConservedAfter, systemAfter, final_concat]
      exact conserved_step_iff pid conserved.last
  have prints :
      AtEveryStep (PrintsReceived programs) schedule ↔
        AtEveryStep (PrintsAfterSuccess programs) schedule := by
    refine atEveryStep_congr ?_
    intro front pid _ _
    exact printsReceived_iff front pid
  rw [texts, prints]

/-- One run of `callMsgQueue`, with no receiver. -/
def senderAlone : List Program := [.callMsgQueue (ascii "hello")]

/-- The sender destroys its own message. -/
theorem senderAlone_loses_message :
    (systemAfter senderAlone [0, 0, 0]).kernel.sent = [ascii "hello"] ∧
      (systemAfter senderAlone [0, 0, 0]).kernel.taken = [] ∧
      (systemAfter senderAlone [0, 0, 0]).kernel.pending = [] ∧
      ¬ ∀ programs schedule,
        AtEveryState (ConservedAfter programs) schedule ∧
          AtEveryStep (PrintsReceived programs) schedule := by
  refine ⟨rfl, rfl, rfl, ?_⟩
  intro always
  have conserved := (always senderAlone [0, 0, 0]).1.last
  have sameLength := conserved.length_eq
  revert sameLength
  decide

end Esp32Source.Ipc
