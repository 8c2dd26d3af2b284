import Esp32Source.UdpServerOriginal.Boot

/-!
# The chain of automatic restarts

Without datagrams, two places restart the device: `app_main` when the line
does not split, and `wifi_init_sta` when the connection fails.  Both store
`wifi is wrong` first, and a boot that reads this text starts the access point
and restarts no more.  So the boots that follow one another on their own are
one boot, or a boot that restarts and a boot of the access point.
-/

namespace Esp32Source.UdpServerOriginal

open Memory Machine UdpServer Wifi

/-- The file is absent, or holds a text that is read in one to three
records. -/
def Readable (storage : Storage) : Prop :=
  ∀ content, storage.files wifiCredential = some content →
    content ≠ [] ∧ NulFree content ∧
      (fgetsRecords content.length content).length ≤ 3

/-- Every storage call of the boot succeeds. -/
structure BootAnswers.Succeed (answers : BootAnswers) : Prop where
  read : answers.read.Succeed
  write : answers.write.Succeed

/-- The device between two boots, with the ends of its boots so far, the
latest first. -/
structure Device where
  storage : Storage
  boots : List BootEnd

/-- The device has been switched on or has restarted on its own. -/
def Device.awaitsBoot (device : Device) : Bool :=
  match device.boots with
  | [] => true
  | ended :: _ => decide ended.Restarts

/-- A device that has settled in a mode stays in it. -/
def Device.boot (device : Device) (answers : BootAnswers) :
    Except Fault (Device × Unit) :=
  if device.awaitsBoot then do
    let (storage, ended) ← appMain (reset device.storage) answers
    return ({ storage, boots := ended :: device.boots }, ())
  else .ok (device, ())

def deviceAfter (storage : Storage) (history : List BootAnswers) :
    Except Fault Device :=
  after Device.boot { storage, boots := [] } history

/-- The number of restarts. -/
def Device.restarts (device : Device) : Nat :=
  device.boots.countP fun ended => decide ended.Restarts

/-! ## One boot -/

/-- A text without a separator is replaced, unless it is the marker already. -/
theorem appMain_of_unseparated {storage : Storage} {answers : BootAnswers}
    {row text behind : List UInt8}
    (read : wearLevellingStorageRead storage wifiCredential answers.read =
      .ok (storage, { mount := .ok, row := some row }))
    (size : row.length = 128) (shape : row = text ++ 0 :: behind)
    (free : NulFree text) (unseparated : separator ∉ text) :
    appMain storage answers =
      .ok (if text = wifiIsWrong then (storage, .softap)
        else (storage.written wifiCredential wifiIsWrong answers.write,
          .restarts)) := by
  obtain ⟨line, rest, stored, cells⟩ :=
    row_stored answers.memory size shape
  have isMarker := strcmpIsZero_iff cells free wifiIsWrong_free
  rw [appMain, read]
  dsimp only [bind, Except.bind]
  rw [stored]
  dsimp only
  by_cases marker : text = wifiIsWrong
  · rw [if_pos (isMarker.mpr marker), if_pos marker]
    rfl
  · rw [if_neg (marker ∘ isMarker.mp), if_neg marker]
    have inside : ∀ byte, byte ∈ text → byte ≠ 0 ∧ byte ∉ [separator] := by
      intro byte member
      refine ⟨free byte member, ?_⟩
      rw [List.mem_singleton]
      intro same
      exact unseparated (same ▸ member)
    have lineShape : line.cells = [] ++ (text ++ 0 :: rest) := cells
    obtain ⟨same, firstCall, _⟩ :=
      strsep_token lineShape inside (Or.inl rfl)
    obtain ⟨reply, erases⟩ := wearLevellingStorage_written storage
      wifiCredential formatOutput_wifiIsWrong answers.write
    rw [List.length_nil, if_pos rfl] at firstCall
    rw [firstCall]
    dsimp only [strsep]
    rw [erases]
    rfl

/-- What a boot from a readable file comes to. -/
structure Boots (storage : Storage) (answers : BootAnswers)
    (final : Storage) (ended : BootEnd) : Prop where
  returns : appMain storage answers = .ok (final, ended)
  erases : ended.Restarts → final.files wifiCredential = some wifiIsWrong
  settles : storage.files wifiCredential = some wifiIsWrong →
    final = storage ∧ ended = .softap

section OneBoot

variable {storage : Storage} {answers : BootAnswers}
  {row text behind : List UInt8}

/-- A row with a separator is taken for credentials, which the marker is
not. -/
theorem boots_of_separated (unmounted : storage.mounted = false)
    (succeed : answers.Succeed)
    (read : wearLevellingStorageRead storage wifiCredential answers.read =
      .ok (storage, { mount := .ok, row := some row }))
    (size : row.length = 128) (shape : row = text ++ 0 :: behind)
    (free : NulFree text) (short : text.length ≤ 127)
    (markerText : storage.files wifiCredential = some wifiIsWrong →
      text = wifiIsWrong)
    (separated : separator ∈ text) :
    ∃ final ended, Boots storage answers final ended := by
  obtain ⟨line, rest, calls, cells⟩ :=
    appMain_of_separated read size shape free separated
  have ssidShorter : (datagramSsid text).length < text.length := by
    obtain ⟨tail, cut, _⟩ := split_at_separator separated
    have total := congrArg List.length cut
    rw [List.length_append, List.length_cons] at total
    omega
  have ssidInside : 0 + 32 ≤ 192 := by
    decide
  have pwdInside : (datagramSsid text).length + 1 + 64 ≤ 192 := by
    omega
  obtain ⟨call, starts⟩ :=
    wifiInitSta_starts storage line answers ssidInside pwdInside
  obtain ⟨final, ended, returned, _, leaves⟩ := starts.ends
  refine ⟨final, ended, calls.trans returned,
    (leaves unmounted succeed.write).2, ?_⟩
  intro isMarker
  rw [markerText isMarker] at separated
  exact absurd separated (by decide)

/-- A row without one is the marker, or replaced by it. -/
theorem boots_of_unseparated (unmounted : storage.mounted = false)
    (succeed : answers.Succeed)
    (read : wearLevellingStorageRead storage wifiCredential answers.read =
      .ok (storage, { mount := .ok, row := some row }))
    (size : row.length = 128) (shape : row = text ++ 0 :: behind)
    (free : NulFree text)
    (markerText : storage.files wifiCredential = some wifiIsWrong →
      text = wifiIsWrong)
    (separated : separator ∉ text) :
    ∃ final ended, Boots storage answers final ended := by
  have outcome :=
    appMain_of_unseparated read size shape free separated
  by_cases marker : text = wifiIsWrong
  · rw [if_pos marker] at outcome
    exact ⟨_, _, outcome, False.elim, fun _ => ⟨rfl, rfl⟩⟩
  · rw [if_neg marker] at outcome
    refine ⟨_, _, outcome, ?_, ?_⟩
    · intro _
      rw [Storage.written_of_succeed unmounted succeed.write]
      dsimp only
      rw [Function.update_self]
    · intro isMarker
      exact absurd (markerText isMarker) marker

end OneBoot

theorem appMain_boots {storage : Storage} {answers : BootAnswers}
    (unmounted : storage.mounted = false) (succeed : answers.Succeed)
    (readable : Readable storage) :
    ∃ final ended, Boots storage answers final ended := by
  cases holds : storage.files wifiCredential with
  | none =>
      have absent :=
        wearLevellingStorageRead_absent unmounted succeed.read holds
      refine ⟨storage, .softap, ?_, False.elim, fun _ => ⟨rfl, rfl⟩⟩
      rw [appMain, absent]
      rfl
  | some content =>
      obtain ⟨nonempty, contentFree, fits⟩ := readable content holds
      obtain ⟨row, behind, read, size, shape⟩ :=
        wearLevellingStorageRead_row unmounted succeed.read holds nonempty
          fits
      have free : NulFree (fgetsRecord content) := fun byte member =>
        contentFree byte ((fgetsRecord_isPrefixOf content).subset member)
      have markerText :
          storage.files wifiCredential = some wifiIsWrong →
            fgetsRecord content = wifiIsWrong := by
        intro isMarker
        have same := holds.symm.trans isMarker
        injection same with isContent
        rw [isContent]
        apply fgetsRecord_of_line
        · decide
        · decide
      by_cases separated : separator ∈ fgetsRecord content
      · exact boots_of_separated unmounted succeed read size shape free
          (length_fgetsRecord_le content) markerText separated
      · exact boots_of_unseparated unmounted succeed read size shape free
          markerText separated

/-! ## The chain -/

/-- The states of the device: switched on, settled after its first boot, about
to boot again, or settled in the access point. -/
inductive Reaches : List BootAnswers → Device → Prop
  | switchedOn {storage : Storage} (readable : Readable storage) :
      Reaches [] { storage, boots := [] }
  | settled {history : List BootAnswers} {storage : Storage}
      {ended : BootEnd} (stays : ¬ ended.Restarts) :
      Reaches history { storage, boots := [ended] }
  | restarting (answers : BootAnswers) {storage : Storage}
      {ended : BootEnd} (restarts : ended.Restarts)
      (erased : storage.files wifiCredential = some wifiIsWrong) :
      Reaches [answers] { storage, boots := [ended] }
  | softap {history : List BootAnswers} {storage : Storage}
      {ended : BootEnd} (restarts : ended.Restarts)
      (erased : storage.files wifiCredential = some wifiIsWrong) :
      Reaches history { storage, boots := [.softap, ended] }

theorem readable_of_erased {storage : Storage}
    (erased : storage.files wifiCredential = some wifiIsWrong) :
    Readable storage := by
  intro content holds
  rw [erased] at holds
  injection holds with isContent
  rw [← isContent]
  decide

theorem Device.boot_of_awaits {device : Device} {answers : BootAnswers}
    {final : Storage} {ended : BootEnd} (awaits : device.awaitsBoot = true)
    (boots : Boots (reset device.storage) answers final ended) :
    device.boot answers =
      .ok ({ storage := final, boots := ended :: device.boots }, ()) := by
  rw [Device.boot, if_pos awaits, boots.returns]
  rfl

theorem Device.boot_of_settled {device : Device} (answers : BootAnswers)
    (settled : device.awaitsBoot = false) :
    device.boot answers = .ok (device, ()) := by
  rw [Device.boot, settled]
  rfl

theorem Reaches.boot {history : List BootAnswers} {device : Device}
    (reaches : Reaches history device) {answers : BootAnswers}
    (succeed : answers.Succeed) :
    ∃ next output, device.boot answers = .ok (next, output) ∧
      Reaches (history ++ [answers]) next := by
  cases reaches with
  | @switchedOn storage readable =>
      have readableNow : Readable (reset storage) := readable
      obtain ⟨final, ended, boots⟩ :=
        appMain_boots rfl succeed readableNow
      refine ⟨_, _, Device.boot_of_awaits rfl boots, ?_⟩
      by_cases restarts : ended.Restarts
      · exact .restarting answers restarts (boots.erases restarts)
      · exact .settled restarts
  | settled stays =>
      refine ⟨_, _, Device.boot_of_settled answers ?_, .settled stays⟩
      exact decide_eq_false stays
  | @restarting _ storage ended restarts erased =>
      have erasedNow :
          (reset storage).files wifiCredential = some wifiIsWrong :=
        erased
      obtain ⟨final, next, boots⟩ :=
        appMain_boots rfl succeed (readable_of_erased erasedNow)
      obtain ⟨sameStorage, isSoftap⟩ := boots.settles erasedNow
      refine ⟨_, _, Device.boot_of_awaits (decide_eq_true restarts) boots, ?_⟩
      rw [isSoftap, sameStorage]
      exact .softap restarts erasedNow
  | softap restarts erased =>
      exact ⟨_, _, Device.boot_of_settled answers rfl,
        .softap restarts erased⟩

/-- There is no reset loop: at most one restart, after which the file holds
the marker and the next boot is the access point; two boots always settle. -/
structure NoResetLoop (history : List BootAnswers) (device : Device) :
    Prop where
  atMostOnce : device.restarts ≤ 1
  erased : 1 ≤ device.restarts →
    device.storage.files wifiCredential = some wifiIsWrong
  thenSoftap : ∀ later next ended earlier,
    device.boots = later ++ next :: ended :: earlier →
      ended.Restarts → next = .softap
  settled : 2 ≤ history.length → device.awaitsBoot = false

theorem Reaches.noResetLoop {history : List BootAnswers} {device : Device}
    (reaches : Reaches history device) : NoResetLoop history device := by
  have onlyOne : ∀ {ended next last : BootEnd} {later earlier},
      [ended] ≠ later ++ next :: last :: earlier := by
    intro ended next last later earlier shape
    have total := congrArg List.length shape
    simp only [List.length_append, List.length_cons, List.length_nil]
      at total
    omega
  cases reaches with
  | switchedOn readable =>
      refine ⟨Nat.zero_le 1, ?_, ?_, ?_⟩
      · intro once
        cases once
      · intro later next ended earlier shape
        simp at shape
      · intro twice
        simp at twice
  | @settled _ storage ended stays =>
      have never :
          Device.restarts { storage, boots := [ended] } = 0 := by
        rw [Device.restarts, List.countP_eq_zero]
        simpa using stays
      refine ⟨never ▸ Nat.zero_le 1, ?_, ?_, ?_⟩
      · intro once
        rw [never] at once
        cases once
      · intro later next ended earlier shape
        exact absurd shape onlyOne
      · intro _
        exact decide_eq_false stays
  | restarting answers restarts erased =>
      refine ⟨List.countP_le_length, fun _ => erased, ?_, ?_⟩
      · intro later next ended earlier shape
        exact absurd shape onlyOne
      · intro twice
        simp at twice
  | @softap _ storage ended restarts erased =>
      refine ⟨?_, fun _ => erased, ?_, fun _ => rfl⟩
      · rw [Device.restarts, List.countP_cons_of_neg (by decide)]
        exact List.countP_le_length
      · intro later next last earlier shape _
        cases later with
        | nil =>
            injection shape with isNext _
            exact isNext.symm
        | cons head rest =>
            injection shape with _ tailShape
            exact absurd tailShape onlyOne

/-- From every readable file and for every outcome of the connection attempts,
the boots of the device end without a fault and without a reset loop. -/
theorem device_has_no_reset_loop (storage : Storage)
    (history : List BootAnswers) (readable : Readable storage)
    (succeed : ∀ answers, answers ∈ history → answers.Succeed) :
    ∃ device, deviceAfter storage history = .ok device ∧
      NoResetLoop history device := by
  obtain ⟨device, reached, reaches⟩ :=
    after_total Reaches BootAnswers.Succeed (.switchedOn readable)
      (fun _ _ _ reaches succeeds => reaches.boot succeeds) succeed
  exact ⟨device, reached, reaches.noResetLoop⟩

/-- The calls succeed and the connection fails. -/
def failingBoot : BootAnswers where
  read := { mountSucceeds := true, fopenSucceeds := true }
  memory := Buffer.zero 192
  bits := { connected := false, failed := true }
  write := { mountSucceeds := true, fopenSucceeds := true }

/-- Three boots from credentials that do not work. -/
theorem device_has_no_reset_loop_failingBoot :
    ∃ device,
      deviceAfter
          { mounted := false, files := fun _ => some (ascii "home;secret") }
          [failingBoot, failingBoot, failingBoot] = .ok device ∧
        NoResetLoop [failingBoot, failingBoot, failingBoot] device := by
  refine device_has_no_reset_loop _ _ ?_ ?_
  · intro content holds
    injection holds with isContent
    rw [← isContent]
    decide
  · intro answers member
    have isFailing : answers = failingBoot := by simpa using member
    rw [isFailing]
    exact ⟨⟨rfl, rfl⟩, ⟨rfl, rfl⟩⟩

end Esp32Source.UdpServerOriginal
