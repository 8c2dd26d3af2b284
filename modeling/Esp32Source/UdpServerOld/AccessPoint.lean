import Esp32Source.UdpServerOld.Provision

/-!
# The access point is a dead end

A device without usable credentials starts the access point, where it is to
be told them.  But the task hands each datagram to the station interface,
which only a station mode has: the driver refuses, and `ESP_ERROR_CHECK`
resets the device in front of the write to the file.  So the next boot is one
of the access point again, whatever the file system answers.
-/

namespace Esp32Source.UdpServerOld

open Memory Machine UdpServer Wifi
open UdpServerOriginal (wifiIsWrong reset Readable)

/-! ## A boot without credentials -/

/-- The access point is started, if the driver starts, for every answer of
the file system. -/
theorem appMain_softap {device : Device}
    (chooses : Chooses device.storage false) (answers : BootAnswers) :
    device.appMain answers =
      .ok (Device.wifiInitSoftap
        { device with
          storage := reset device.storage, rxBuffer := answers.rxBuffer,
          wifiConfig2 := StaConfig.zero }
        answers.starts) :=
  appMain_chooses chooses answers

/-! ## Runs -/

/-- A datagram that the device receives as an access point is refused by the
driver. -/
def RefusesStation (device : Device) (front : List DeviceEvent)
    (event : DeviceEvent) : Prop :=
  ∀ middle bytes answers,
    deviceAfter device front = .ok middle →
      middle.stage = .receiving .ap → event = .datagram bytes answers →
        answers.accepts = false

/-- The device has no station running, and nothing that it keeps has
changed. -/
structure KeptOut (device reached : Device) : Prop where
  stage : reached.stage = .resets ∨ reached.stage = .receiving .ap ∨
    reached.stage = .deleted
  stored : reached.stored = device.stored
  files : reached.storage.files = device.storage.files

theorem Chooses.of_files {storage other : Storage} {tries : Bool}
    (chooses : Chooses storage tries) (files : other.files = storage.files) :
    Chooses other tries where
  readable := by
    intro content holds
    rw [files] at holds
    exact chooses.readable content holds
  tries := by
    rw [files]
    exact chooses.tries

section Steps

variable {device reached next : Device} {calls : List DeviceCall}

theorem KeptOut.boot (keptOut : KeptOut device reached)
    (chooses : Chooses device.storage false) {answers : BootAnswers}
    (handled : reached.appMain answers = .ok (next, calls))
    (stage : reached.stage = .resets) : KeptOut device next := by
  rw [appMain_softap (chooses.of_files keptOut.files),
    Device.wifiInitSoftap] at handled
  split at handled <;> cases handled
  · exact ⟨Or.inr (Or.inl rfl), keptOut.stored, keptOut.files⟩
  · exact ⟨Or.inl stage, keptOut.stored, keptOut.files⟩

theorem KeptOut.recvError (keptOut : KeptOut device reached)
    (reopens : Bool) : KeptOut device (reached.reopenSocket reopens) := by
  rw [Device.reopenSocket]
  split
  · exact keptOut
  · exact ⟨Or.inr (Or.inr rfl), keptOut.stored, keptOut.files⟩

/-- A datagram that the driver refuses leads to a reset, if the device gets
so far. -/
theorem KeptOut.datagram (keptOut : KeptOut device reached)
    {bytes : List UInt8} {answers : DatagramAnswers}
    (refused : answers.accepts = false)
    (handled : reached.receive bytes answers = .ok (next, calls)) :
    KeptOut device next := by
  simp only [Device.receive, bind_eq_ok_iff] at handled
  obtain ⟨received, _, terminated, _, copied, _, handled⟩ := handled
  rw [refused] at handled
  cases handled
  exact ⟨Or.inl rfl, keptOut.stored, keptOut.files⟩

theorem KeptOut.handle (keptOut : KeptOut device reached)
    (chooses : Chooses device.storage false) {event : DeviceEvent}
    (handled : reached.handle event = .ok (next, calls))
    (refuses : ∀ bytes answers, reached.stage = .receiving .ap →
      event = .datagram bytes answers → answers.accepts = false) :
    KeptOut device next := by
  cases awaited : event.isAwaited reached.stage with
  | false =>
      rw [Device.handle_of_idle awaited] at handled
      cases handled
      exact keptOut
  | true =>
      rcases isAwaited_cases awaited with
        isReset | ⟨answers, isBoot, stage⟩ |
        ⟨bits, accepts, write, isWait, stage⟩ |
        ⟨reopens, mode, isError, stage⟩ |
        ⟨bytes, answers, mode, isDatagram, stage⟩
      · subst isReset
        cases handled
        exact ⟨Or.inl rfl, keptOut.stored, keptOut.files⟩
      · subst isBoot
        simp only [Device.handle, stage] at handled
        exact keptOut.boot chooses handled stage
      · rcases keptOut.stage with other | other | other <;>
          cases stage.symm.trans other
      · subst isError
        simp only [Device.handle, stage] at handled
        cases handled
        exact keptOut.recvError reopens
      · subst isDatagram
        simp only [Device.handle, stage] at handled
        have isAccessPoint : reached.stage = .receiving .ap := by
          rcases keptOut.stage with other | other | other
          · cases stage.symm.trans other
          · exact other
          · cases stage.symm.trans other
        exact keptOut.datagram (refuses bytes answers isAccessPoint rfl)
          handled

end Steps

/-- A device that has no usable credentials never gets any, when the driver
refuses a station configuration to an access point: in every state of every
run, for all datagrams and all answers of the file system, no station is
running and the file and the configuration of the driver are as they were. -/
theorem access_point_is_final (device : Device) (history : List DeviceEvent)
    (chooses : Chooses device.storage false)
    (stage : device.stage = .resets)
    (refuses : AtEveryStep (RefusesStation device) history) :
    AtEveryState
      (fun front => ∀ reached, deviceAfter device front = .ok reached →
        KeptOut device reached)
      history := by
  refine refuses.atEveryState ?_
  intro front refusesFront reached run
  have carried : AtEveryStep (RefusesStation device) front →
      KeptOut device reached := by
    refine after_induction
      (motive := fun front reached =>
        AtEveryStep (RefusesStation device) front → KeptOut device reached)
      (fun _ => ⟨Or.inl stage, rfl, rfl⟩) ?_ run
    intro earlier event middle next calls here keeps handled allRefuse
    rw [atEveryStep_concat_iff] at allRefuse
    exact (keeps allRefuse.1).handle chooses handled
      fun bytes answers => allRefuse.2 middle bytes answers here
  exact carried refusesFront

theorem chooses_emptyStorage : Chooses emptyStorage false where
  readable := by
    intro content holds
    cases holds
  tries := by
    refine iff_of_false Bool.false_ne_true ?_
    intro found
    obtain ⟨content, holds, _⟩ := found
    cases holds

/-- A datagram of credentials that the driver refuses. -/
def credentialsRefused : DeviceEvent :=
  .datagram (ascii "home;secret") { lostEcho with accepts := false }

/-- The boot behind the reset starts the access point again. -/
theorem access_point_is_final_credentialsRefused :
    AtEveryState
      (fun front => ∀ reached,
        deviceAfter (blankDevice emptyStorage) front = .ok reached →
          KeptOut (blankDevice emptyStorage) reached)
      [smoothBoot, credentialsRefused, smoothBoot] := by
  refine access_point_is_final (blankDevice emptyStorage)
    [smoothBoot, credentialsRefused, smoothBoot] chooses_emptyStorage rfl ?_
  intro front event behind shape middle bytes answers _ _ isDatagram
  have member : event ∈ [smoothBoot, credentialsRefused, smoothBoot] := by
    rw [shape]
    simp
  simp only [List.mem_cons, List.not_mem_nil, or_false] at member
  rcases member with isBoot | isRefused | isBoot
  · cases isBoot.symm.trans isDatagram
  · cases isRefused.symm.trans isDatagram
    rfl
  · cases isBoot.symm.trans isDatagram

end Esp32Source.UdpServerOld
