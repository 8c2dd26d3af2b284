import Esp32Source.UdpServerOriginal.Lifetime

/-!
# Outages

The bits that a boot waits for are those that `event_handler` sets.  A boot
that gets an address keeps the credentials, whatever disconnects come with it,
and behind six disconnects in a row and no address it erases them, if the file
can be opened.  Nothing is written before the wait returns, so that a power
cut before that is a `reset`.
-/

namespace Esp32Source.UdpServerOriginal

open Memory Machine UdpServer Wifi

/-- The wait returns with the bits that the handler has set by then. -/
structure Waited (events : List StaEvent) (bits : EventBits) : Prop where
  handled : bits = (retryAfter events).bits
  returns : bits.connected = true ∨ bits.failed = true

/-- A boot behind `front` that reads the file waits while the events of
`delivered` are handled. -/
def WaitsFor (delivered : List FirmwareEvent → List StaEvent)
    (front : List FirmwareEvent) (event : FirmwareEvent) : Prop :=
  ∀ answers, event = .boot answers → answers.read.Succeed →
    Waited (delivered front) answers.bits

/-- If the device boots, and its storage calls succeed, an address is assigned
before the wait returns. -/
def GetsAddress (receiver : Receiver) (firmware : Firmware)
    (delivered : List FirmwareEvent → List StaEvent)
    (front : List FirmwareEvent) (event : FirmwareEvent) : Prop :=
  ∀ answers middle,
    event = .boot answers →
      firmwareAfter receiver firmware front = .ok middle →
      middle.stage = .resets → answers.Succeed → .gotIp ∈ delivered front

section Waits

variable {events : List StaEvent} {bits : EventBits}

theorem Waited.connected_iff (waited : Waited events bits) :
    bits.connected = true ↔ .gotIp ∈ events := by
  rw [waited.handled]
  exact (retryAfter_follows events).connected

/-- Without an address the wait returns behind the sixth disconnect in a
row. -/
theorem Waited.gaveUp (waited : Waited events bits)
    (noAddress : .gotIp ∉ events) : GaveUp events := by
  have notConnected : ¬ bits.connected = true := fun connected =>
    noAddress (waited.connected_iff.mp connected)
  have failed := waited.returns.resolve_left notConnected
  rw [waited.handled] at failed
  exact (retryAfter_follows events).failed.mp failed

end Waits

/-- A boot keeps a text with a separator unless it reads it, gets no
connection and opens the file again. -/
theorem Provisioner.boot_keeps {provisioner : Provisioner}
    {text : List UInt8} (isTold : provisioner.text = some text)
    (separated : separator ∈ text) {answers : BootAnswers}
    (connects : answers.Succeed → answers.bits.connected = true) :
    (provisioner.boot answers).1.text = some text := by
  cases opens : answers.read.opens false with
  | false =>
      have silent : provisioner.reads answers = none := by
        rw [reads, opens]
        rfl
      rw [boot, silent]
      exact isTold
  | true =>
      have isRead : provisioner.reads answers = some text := by
        rw [reads, if_pos opens]
        exact isTold
      cases connected : answers.bits.connected with
      | true =>
          simp only [boot, isRead, if_pos separated, connected, if_true]
          exact isTold
      | false =>
          -- the write that is to erase the text cannot open the file
          have unopened : answers.write.opens false = false := by
            by_contra erases
            rw [Bool.not_eq_false, StorageAnswers.opens_iff] at erases
            rw [connects ⟨StorageAnswers.opens_iff.mp opens, erases⟩]
              at connected
            cases connected
          simp only [boot, isRead, if_pos separated, connected, store,
            unopened, if_neg Bool.false_ne_true]
          split <;> exact isTold

/-- So does every other event that is no datagram. -/
theorem Provisioner.handle_keeps {provisioner : Provisioner}
    {text : List UInt8} (isTold : provisioner.text = some text)
    (separated : separator ∈ text) {event : FirmwareEvent}
    (noDatagram : event.isDatagram = false)
    (connects : ∀ answers, event = .boot answers →
      provisioner.stage = .resets → answers.Succeed →
        answers.bits.connected = true) :
    (provisioner.handle event).1.text = some text := by
  cases event with
  | reset =>
      exact isTold
  | boot answers =>
      cases stage : provisioner.stage with
      | resets =>
          simp only [handle, stage]
          exact boot_keeps isTold separated (connects answers rfl stage)
      | serves | deleted =>
          simp only [handle, stage]
          exact isTold
  | recvError reopens =>
      cases stage : provisioner.stage <;> cases reopens <;>
        simp only [handle, stage, reopen] <;> exact isTold
  | datagram bytes answers =>
      cases noDatagram

section Runs

variable {receiver : Receiver} {firmware : Firmware}
  {provisioner : Provisioner} {text : List UInt8}
  {delivered : List FirmwareEvent → List StaEvent}

/-- The machine is told its text as long as every such boot gets an
address. -/
theorem provisionerAfter_text_iff (refines : Refines firmware provisioner)
    (isTold : provisioner.text = some text) (separated : separator ∈ text)
    {history : List FirmwareEvent}
    (noDatagram : ∀ event, event ∈ history → event.isDatagram = false)
    (waits : AtEveryStep (WaitsFor delivered) history) :
    (AtEveryStep (GetsAddress receiver firmware delivered) history →
        (provisionerAfter provisioner history).text = some text) ∧
      (¬ AtEveryStep (GetsAddress receiver firmware delivered) history →
        (provisionerAfter provisioner history).text = none) := by
  induction history using List.reverseRecOn with
  | nil =>
      exact ⟨fun _ => isTold, fun loses => absurd (atEveryStep_nil _) loses⟩
  | append_singleton front event inductionHypothesis =>
      rw [List.forall_mem_append, List.forall_mem_singleton] at noDatagram
      rw [atEveryStep_concat_iff] at waits ⊢
      obtain ⟨keeps, forgets⟩ := inductionHypothesis noDatagram.1 waits.1
      rw [provisionerAfter, final_concat]
      rw [provisionerAfter] at keeps forgets
      obtain ⟨middle, reached, related⟩ := @firmwareAfter_refines receiver _ _
        refines front fun event member =>
          FirmwareEvent.wellFormed_of_no_datagram (noDatagram.1 event member)
      have sameStage := related.stage
      rw [provisionerAfter] at sameStage
      constructor
      · rintro ⟨earlier, here⟩
        refine Provisioner.handle_keeps (keeps earlier) separated
          noDatagram.2 ?_
        rintro answers rfl isResets succeed
        have gotIp := here answers middle rfl reached
          (sameStage.trans isResets) succeed
        exact (waits.2 answers rfl succeed.read).connected_iff.mpr gotIp
      · intro loses
        by_cases earlier :
            AtEveryStep (GetsAddress receiver firmware delivered) front
        · have fails : ¬ GetsAddress receiver firmware delivered front
              event := fun here => loses ⟨earlier, here⟩
          rw [GetsAddress] at fails
          push Not at fails
          obtain ⟨answers, same, rfl, alsoReached, isResets, succeed,
            noAddress⟩ := fails
          cases reached.symm.trans alsoReached
          have isStage := sameStage.symm.trans isResets
          have notConnected : answers.bits.connected = false := by
            rw [← Bool.not_eq_true,
              (waits.2 answers rfl succeed.read).connected_iff]
            exact noAddress
          simp only [Provisioner.handle, isStage]
          exact provisioner_boot_fails succeed notConnected
        · exact (handle_of_told_nothing (forgets earlier) noDatagram.2).1

end Runs

/-- Five disconnects and an address. -/
def shortOutage : List StaEvent :=
  .staStart :: List.replicate 5 .staDisconnected ++ [.gotIp]

def connectingBoot : BootAnswers :=
  { failingBoot with bits := { connected := true, failed := false } }

end Esp32Source.UdpServerOriginal
