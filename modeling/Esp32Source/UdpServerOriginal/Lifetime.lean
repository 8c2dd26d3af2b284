import Esp32Source.Machine.Refinement
import Esp32Source.UdpServerOriginal.RoundTrip
import Esp32Source.UdpServerOriginal.Restart

/-!
# The life of the device

`app_main` and `udp_server_task` together, over any number of boots, datagrams
and power cycles.  A boot runs up to the point where the task is created, or to
its restart.  The text in the credential file is all that one boot leaves to
the next.

`Provisioner` says what the device is for: it has been told a text or none,
connects with the two parts of the text, and forgets a text that is of no use.
From wherever the device has got to, a power cycle and at most two boots bring
it to listen again.
-/

namespace Esp32Source.UdpServerOriginal

open Memory Machine UdpServer Wifi

/-! ## The program -/

inductive Stage where
  | resets
  | serves
  | deleted
  deriving DecidableEq, Repr

structure Firmware where
  stage : Stage
  storage : Storage

/-- What the environment decides about one datagram, with what is left in the
buffer of the task. -/
structure DatagramAnswers where
  rxBuffer : Buffer 128
  storage : StorageAnswers
  sends : Bool
  reopens : Bool

inductive FirmwareEvent where
  | reset
  | boot (answers : BootAnswers)
  | recvError (reopens : Bool)
  | datagram (bytes : List UInt8) (answers : DatagramAnswers)

inductive FirmwareCall where
  | softap
  | connect (call : StaCall)
  | restart
  | sendto (bytes : List UInt8)
  deriving DecidableEq, Repr

def BootEnd.stage : BootEnd → Stage
  | .softap => .serves
  | .sta _ => .serves
  | .staRestarts _ => .resets
  | .restarts => .resets

def BootEnd.calls : BootEnd → List FirmwareCall
  | .softap => [.softap]
  | .sta call => [.connect call]
  | .staRestarts call => [.connect call, .restart]
  | .restarts => [.restart]

/-- The inner loop was left: the outer one opens a socket again, or ends. -/
def Firmware.reopenSocket (firmware : Firmware) (reopens : Bool) : Firmware :=
  if reopens then firmware else { firmware with stage := .deleted }

def Firmware.boot (firmware : Firmware) (answers : BootAnswers) :
    Except Fault (Firmware × List FirmwareCall) := do
  let (storage, ended) ← appMain (reset firmware.storage) answers
  return ({ stage := ended.stage, storage }, ended.calls)

def Firmware.receive (receiver : Receiver) (firmware : Firmware)
    (bytes : List UInt8) (answers : DatagramAnswers) :
    Except Fault (Firmware × List FirmwareCall) := do
  let (storage, echo, sends) ← udpServerTask receiver answers.rxBuffer
    firmware.storage bytes answers.storage answers.sends
  let firmware := { firmware with storage }
  if sends then
    return ({ firmware with stage := .resets }, [.sendto echo, .restart])
  else return (firmware.reopenSocket answers.reopens, [.sendto echo])

/-- An event for which the device does not wait changes nothing. -/
def Firmware.handle (receiver : Receiver) (firmware : Firmware)
    (event : FirmwareEvent) : Except Fault (Firmware × List FirmwareCall) :=
  match event, firmware.stage with
  | .reset, _ => .ok ({ firmware with stage := .resets }, [])
  | .boot answers, .resets => firmware.boot answers
  | .recvError reopens, .serves => .ok (firmware.reopenSocket reopens, [])
  | .datagram bytes answers, .serves =>
      firmware.receive receiver bytes answers
  | _, _ => .ok (firmware, [])

def firmwareAfter (receiver : Receiver) (firmware : Firmware)
    (history : List FirmwareEvent) : Except Fault Firmware :=
  after (Firmware.handle receiver) firmware history

/-! ## What the device is for -/

/-- A name and a password, as the driver is given them. -/
abbrev Pair := List UInt8 × List UInt8

/-- `mounted` says that the partition was left mounted, so that no file can be
opened up to the next boot. -/
structure Provisioner where
  stage : Stage
  text : Option (List UInt8)
  mounted : Bool
  deriving DecidableEq, Repr

inductive ProvisionerCall where
  | softap
  | connect (pair : Pair)
  | restart
  | reply (bytes : List UInt8)
  deriving DecidableEq, Repr

/-- The parts of a text, cut to the sizes of the two fields. -/
def pairOf (text : List UInt8) : Pair :=
  ((datagramSsid text).take 32, (datagramPasswd text).take 64)

/-- The text of a file, if it tells the device anything. -/
def textOf (content : List UInt8) : Option (List UInt8) :=
  if fgetsRecord content = wifiIsWrong then none
  else some (fgetsRecord content)

/-- What the task writes for a datagram. -/
def writtenFor (bytes : List UInt8) : List UInt8 :=
  match formatOutput bytes with
  | .ok written => written
  | .error _ => []

def Provisioner.reopen (provisioner : Provisioner) (reopens : Bool) :
    Provisioner :=
  if reopens then provisioner else { provisioner with stage := .deleted }

/-- The machine is to remember the text, or to forget what it was told. -/
def Provisioner.store (provisioner : Provisioner)
    (text : Option (List UInt8)) (answers : StorageAnswers) : Provisioner :=
  { provisioner with
    text :=
      if answers.opens provisioner.mounted then text else provisioner.text
    mounted := answers.leavesMounted provisioner.mounted }

/-- What a boot gets to know of the text. -/
def Provisioner.reads (provisioner : Provisioner) (answers : BootAnswers) :
    Option (List UInt8) :=
  if answers.read.opens false then provisioner.text else none

def Provisioner.boot (provisioner : Provisioner) (answers : BootAnswers) :
    Provisioner × List ProvisionerCall :=
  let booted := { provisioner with mounted := false }
  let erased := booted.store none answers.write
  match provisioner.reads answers with
  | none => ({ booted with stage := .serves }, [.softap])
  | some text =>
      if separator ∈ text then
        if answers.bits.connected then
          ({ booted with stage := .serves }, [.connect (pairOf text)])
        else if answers.bits.failed then
          ({ erased with stage := .resets },
            [.connect (pairOf text), .restart])
        else ({ erased with stage := .serves }, [.connect (pairOf text)])
      else ({ erased with stage := .resets }, [.restart])

def Provisioner.receive (provisioner : Provisioner) (bytes : List UInt8)
    (answers : DatagramAnswers) : Provisioner × List ProvisionerCall :=
  let told :=
    provisioner.store (textOf (writtenFor bytes)) answers.storage
  if answers.sends then
    ({ told with stage := .resets }, [.reply bytes, .restart])
  else (told.reopen answers.reopens, [.reply bytes])

def Provisioner.handle (provisioner : Provisioner) (event : FirmwareEvent) :
    Provisioner × List ProvisionerCall :=
  match event, provisioner.stage with
  | .reset, _ => ({ provisioner with stage := .resets }, [])
  | .boot answers, .resets => provisioner.boot answers
  | .recvError reopens, .serves => (provisioner.reopen reopens, [])
  | .datagram bytes answers, .serves => provisioner.receive bytes answers
  | _, _ => (provisioner, [])

def provisionerAfter (provisioner : Provisioner)
    (history : List FirmwareEvent) : Provisioner :=
  final Provisioner.handle provisioner history

/-- What the file tells the device. -/
def told (storage : Storage) : Option (List UInt8) :=
  (storage.files wifiCredential).bind textOf

structure Refines (firmware : Firmware) (provisioner : Provisioner) :
    Prop where
  stage : firmware.stage = provisioner.stage
  text : told firmware.storage = provisioner.text
  mounted : firmware.storage.mounted = provisioner.mounted
  readable : Readable firmware.storage

section Relation

variable {firmware : Firmware} {provisioner : Provisioner}

theorem Refines.moves (refines : Refines firmware provisioner)
    (stage : Stage) :
    Refines { firmware with stage } { provisioner with stage } :=
  ⟨rfl, refines.text, refines.mounted, refines.readable⟩

/-- A write that is asked for tells the machine the text, if the file is
opened. -/
theorem Refines.store (refines : Refines firmware provisioner)
    {text : List UInt8} (nonempty : text ≠ []) (free : NulFree text)
    (fits : (fgetsRecords text.length text).length ≤ 3)
    (answers : StorageAnswers) :
    Refines
      { firmware with
        storage := firmware.storage.written wifiCredential text answers }
      (provisioner.store (textOf text) answers) := by
  have sameMounted := refines.mounted
  refine ⟨refines.stage, ?_, ?_, ?_⟩
  · rw [Provisioner.store, told, Storage.written, sameMounted]
    dsimp only
    by_cases opens : answers.opens provisioner.mounted
    · rw [if_pos opens, if_pos opens, Function.update_self]
      rfl
    · rw [if_neg opens, if_neg opens]
      exact refines.text
  · rw [Provisioner.store, Storage.written, sameMounted]
  · intro content holds
    rw [Storage.written] at holds
    dsimp only at holds
    by_cases opens : answers.opens firmware.storage.mounted
    · rw [if_pos opens, Function.update_self] at holds
      injection holds with isContent
      rw [← isContent]
      exact ⟨nonempty, free, fits⟩
    · rw [if_neg opens] at holds
      exact refines.readable content holds

theorem Refines.erase (refines : Refines firmware provisioner)
    (answers : StorageAnswers) :
    Refines
      { firmware with
        storage :=
          firmware.storage.written wifiCredential wifiIsWrong answers }
      (provisioner.store none answers) := by
  have nothing : textOf wifiIsWrong = none := by
    decide
  have stored := refines.store (by decide) wifiIsWrong_free (by decide)
    answers
  rw [nothing] at stored
  exact stored

end Relation

/-! ## One boot -/

/-- What the driver is given. -/
def StaCall.pair (call : StaCall) : Pair :=
  (ssidText call.config.lead, passwordText call.config.lead)

def FirmwareCall.seen : FirmwareCall → ProvisionerCall
  | .softap => .softap
  | .connect call => .connect call.pair
  | .restart => .restart
  | .sendto bytes => .reply bytes

/-- A field that is shorter than the string and its terminator holds the front
of the string. -/
theorem cText_take_text {text : List UInt8} (free : NulFree text)
    (rest : List UInt8) (count : Nat) :
    cText ((text ++ 0 :: rest).take count) = text.take count := by
  by_cases fits : text.length ≤ count
  · rw [cText_take_terminated free rest fits, List.take_of_length_le fits]
  · rw [List.take_append_of_le_length (by omega), cText_of_nulFree]
    intro byte member
    exact free byte (List.mem_of_mem_take member)

/-- `wifi_init_sta` with the two strings of a text, and each way it goes on. -/
theorem wifiInitSta_ends (storage : Storage) (answers : BootAnswers)
    {line : Buffer 192} {ssid pwd rest : List UInt8}
    (cells : line.cells = ssid ++ 0 :: (pwd ++ 0 :: rest))
    (ssidFree : NulFree ssid) (pwdFree : NulFree pwd)
    (short : ssid.length ≤ 127) :
    ∃ call,
      call.pair = (ssid.take 32, pwd.take 64) ∧
        wifiInitSta storage line 0 (ssid.length + 1) answers =
          .ok (let erased :=
              storage.written wifiCredential wifiIsWrong answers.write
            if answers.bits.connected then (storage, .sta call)
            else if answers.bits.failed then (erased, .staRestarts call)
            else (erased, .sta call)) := by
  have ssidInside : 0 + 32 ≤ 192 := by
    decide
  have pwdInside : ssid.length + 1 + 64 ≤ 192 := by
    omega
  obtain ⟨config, copied, ssidField, pwdField⟩ :=
    staConfig_copies line ssidInside pwdInside
  obtain ⟨reply, erases⟩ := wearLevellingStorage_written storage
    wifiCredential formatOutput_wifiIsWrong answers.write
  have fromPwd : line.cells.drop (ssid.length + 1) = pwd ++ 0 :: rest := by
    rw [cells, List.drop_append, List.drop_of_length_le (by omega)]
    simp
  refine ⟨⟨cText (line.cells.drop 0),
    cText (line.cells.drop (ssid.length + 1)), config⟩, ?_, ?_⟩
  · rw [StaCall.pair, ssidText, ssidField, passwordText, pwdField,
      Buffer.window, Buffer.window, Memory.window, Memory.window, fromPwd,
      List.drop_zero, cells, cText_take_text ssidFree,
      cText_take_text pwdFree]
  · rw [wifiInitSta, copied]
    dsimp only [bind, Except.bind]
    by_cases connected : answers.bits.connected
    · rw [if_pos connected, if_pos connected]
      rfl
    · rw [if_neg connected, if_neg connected, erases]
      dsimp only
      by_cases failed : answers.bits.failed
      · rw [if_pos failed, if_pos failed]
        rfl
      · rw [if_neg failed, if_neg failed]
        rfl

/-- The boot does what the machine does. -/
def BootsAs (storage : Storage) (provisioner : Provisioner)
    (answers : BootAnswers) : Prop :=
  ∃ final ended,
    appMain storage answers = .ok (final, ended) ∧
      ended.calls.map FirmwareCall.seen = (provisioner.boot answers).2 ∧
      Refines ⟨ended.stage, final⟩ (provisioner.boot answers).1

section Boot

variable {storage : Storage} {provisioner : Provisioner}
  {answers : BootAnswers}

/-- Nothing is known of the text: the access point starts. -/
theorem bootsAs_of_silent
    (refines : Refines ⟨.resets, storage⟩
      { provisioner with stage := .resets, mounted := false })
    (silent : provisioner.reads answers = none)
    (booted : appMain storage answers = .ok (storage, .softap)) :
    BootsAs storage provisioner answers := by
  rw [BootsAs, Provisioner.boot, silent]
  exact ⟨storage, .softap, booted, rfl, refines.moves .serves⟩

/-- A text with a separator starts the station. -/
theorem bootsAs_of_separated
    (refines : Refines ⟨.resets, storage⟩
      { provisioner with stage := .resets, mounted := false })
    {row text behind : List UInt8}
    (read : wearLevellingStorageRead storage wifiCredential answers.read =
      .ok (storage, { mount := .ok, row := some row }))
    (size : row.length = 128) (shape : row = text ++ 0 :: behind)
    (free : NulFree text) (short : text.length ≤ 127)
    (isRead : provisioner.reads answers = some text)
    (separated : separator ∈ text) :
    BootsAs storage provisioner answers := by
  obtain ⟨line, rest, booted, cells⟩ :=
    appMain_of_separated read size shape free separated
  have inText : ∀ byte, byte ∈ datagramSsid text → byte ∈ text :=
    fun _ member => List.takeWhile_subset _ member
  have pwdInText : ∀ byte, byte ∈ datagramPasswd text → byte ∈ text :=
    fun _ member => List.dropWhile_subset _
      (List.mem_of_mem_drop (List.takeWhile_subset _ member))
  have ssidShort : (datagramSsid text).length ≤ text.length :=
    List.Sublist.length_le (List.takeWhile_sublist _)
  obtain ⟨call, pair, ends⟩ := wifiInitSta_ends storage answers cells
    (fun byte member => free byte (inText byte member))
    (fun byte member => free byte (pwdInText byte member))
    (ssidShort.trans short)
  have seen : FirmwareCall.seen (.connect call) = .connect (pairOf text) :=
    congrArg ProvisionerCall.connect pair
  rw [BootsAs, Provisioner.boot, isRead]
  simp only [if_pos separated]
  by_cases connected : answers.bits.connected
  · simp only [if_pos connected] at ends ⊢
    exact ⟨storage, _, booted.trans ends, congrArg (fun call => [call]) seen,
      refines.moves .serves⟩
  · have erased := refines.erase answers.write
    by_cases failed : answers.bits.failed
    · simp only [if_neg connected, if_pos failed] at ends ⊢
      exact ⟨_, _, booted.trans ends,
        congrArg (fun call => [call, ProvisionerCall.restart]) seen,
        erased.moves .resets⟩
    · simp only [if_neg connected, if_neg failed] at ends ⊢
      exact ⟨_, _, booted.trans ends, congrArg (fun call => [call]) seen,
        erased.moves .serves⟩

/-- A boot that opens the file goes on with its first record. -/
theorem bootsAs_of_opened
    (refines : Refines ⟨.resets, storage⟩
      { provisioner with stage := .resets, mounted := false })
    (opens : answers.read.opens false = true) :
    BootsAs storage provisioner answers := by
  have unmounted : storage.mounted = false := refines.mounted
  have succeed := StorageAnswers.opens_iff.mp opens
  have isRead : provisioner.reads answers = told storage := by
    rw [Provisioner.reads, if_pos opens]
    exact refines.text.symm
  cases holds : storage.files wifiCredential with
  | none =>
      rw [told, holds] at isRead
      refine bootsAs_of_silent refines isRead ?_
      rw [appMain, wearLevellingStorageRead_absent unmounted succeed holds]
      rfl
  | some content =>
      obtain ⟨nonempty, contentFree, fits⟩ := refines.readable content holds
      obtain ⟨row, behind, read, size, shape⟩ :=
        wearLevellingStorageRead_row unmounted succeed holds nonempty fits
      have free : NulFree (fgetsRecord content) := fun byte member =>
        contentFree byte ((fgetsRecord_isPrefixOf content).subset member)
      have isTold : told storage = textOf content := by
        rw [told, holds]
        rfl
      rw [isTold] at isRead
      by_cases separated : separator ∈ fgetsRecord content
      · have notMarker : fgetsRecord content ≠ wifiIsWrong := by
          intro marker
          rw [marker] at separated
          exact absurd separated (by decide)
        rw [textOf, if_neg notMarker] at isRead
        exact bootsAs_of_separated refines read size shape free
          (length_fgetsRecord_le content) isRead separated
      · have booted := appMain_of_unseparated read size shape free separated
        by_cases marker : fgetsRecord content = wifiIsWrong
        · rw [textOf, if_pos marker] at isRead
          rw [if_pos marker] at booted
          exact bootsAs_of_silent refines isRead booted
        · rw [textOf, if_neg marker] at isRead
          rw [if_neg marker] at booted
          rw [BootsAs, Provisioner.boot, isRead]
          simp only [if_neg separated]
          exact ⟨_, .restarts, booted, rfl,
            (refines.erase answers.write).moves .resets⟩

theorem appMain_bootsAs
    (refines : Refines ⟨.resets, storage⟩
      { provisioner with stage := .resets, mounted := false })
    (answers : BootAnswers) : BootsAs storage provisioner answers := by
  cases opens : answers.read.opens false with
  | true =>
      exact bootsAs_of_opened refines opens
  | false =>
      obtain ⟨mount, read⟩ := wearLevellingStorageRead_fails refines.mounted
        opens wifiCredential
      refine bootsAs_of_silent refines ?_ ?_
      · rw [Provisioner.reads, opens]
        rfl
      · rw [appMain, read]
        rfl

end Boot

/-! ## One datagram -/

/-- The datagram has no NUL, `fprintf` can write it, and what it writes is
read again in one to three records. -/
structure Storable (bytes : List UInt8) : Prop where
  nonempty : bytes ≠ []
  short : bytes.length ≤ 127
  free : NulFree bytes
  paired : percentsPaired bytes = true
  fits : (fgetsRecords (writtenFor bytes).length
    (writtenFor bytes)).length ≤ 3

theorem Storable.formatted {bytes : List UInt8} (storable : Storable bytes) :
    formatOutput bytes = .ok (writtenFor bytes) := by
  obtain ⟨written, formatted⟩ :=
    (formatOutput_isOk_iff bytes).mpr storable.paired
  rw [writtenFor, formatted]

/-- What is written for such a datagram can be read. -/
theorem Storable.readable {bytes : List UInt8} (storable : Storable bytes) :
    writtenFor bytes ≠ [] ∧ NulFree (writtenFor bytes) :=
  ⟨formatOutput_ne_nil storable.formatted storable.nonempty,
    fun byte member => storable.free byte
      (formatOutput_subset storable.formatted byte member)⟩

/-- The task writes the datagram and sends it back. -/
theorem udpServerTask_returns (receiver : Receiver) (rxBuffer : Buffer 128)
    (storage : Storage) (answers : StorageAnswers) {bytes : List UInt8}
    (storable : Storable bytes) (sends : Bool) :
    udpServerTask receiver rxBuffer storage bytes answers sends =
      .ok (storage.written wifiCredential (writtenFor bytes) answers, bytes,
        sends) := by
  have short := storable.short
  obtain ⟨received, terminated, first, second, cells⟩ :=
    rxBuffer.terminate_of_fits bytes (by omega)
  have text : cText terminated.cells = bytes := by
    rw [cells, cText_terminated storable.free]
  have echoed := terminated.load_of_fits 0 bytes.length (by omega)
  have front : terminated.window 0 bytes.length = bytes := by
    rw [Buffer.window, Memory.window, List.drop_zero, cells, List.take_left]
  have formatted :
      formatOutput (cText terminated.cells) = .ok (writtenFor bytes) := by
    rw [text]
    exact storable.formatted
  obtain ⟨reply, writes⟩ := wearLevellingStorage_written storage
    wifiCredential formatted answers
  rw [udpServerTask, takes_of_short receiver short]
  dsimp only [bind, Except.bind]
  rw [first]
  dsimp only
  rw [second]
  dsimp only
  rw [writes]
  dsimp only
  rw [echoed, front]
  rfl

/-! ## The firmware does what the machine does -/

/-- A datagram can be stored.  The storage calls may go any way. -/
def FirmwareEvent.WellFormed : FirmwareEvent → Prop
  | .datagram bytes _ => Storable bytes
  | _ => True

/-- The device waits for such an event. -/
def FirmwareEvent.isAwaited : FirmwareEvent → Stage → Bool
  | .reset, _ => true
  | .boot _, .resets => true
  | .recvError _, .serves => true
  | .datagram _ _, .serves => true
  | _, _ => false

theorem FirmwareEvent.isAwaited_cases {event : FirmwareEvent} {stage : Stage}
    (awaited : event.isAwaited stage = true) :
    event = .reset ∨
      (∃ answers, event = .boot answers ∧ stage = .resets) ∨
      (∃ reopens, event = .recvError reopens ∧ stage = .serves) ∨
      ∃ bytes answers, event = .datagram bytes answers ∧ stage = .serves := by
  cases event <;> cases stage <;> simp_all [FirmwareEvent.isAwaited]

theorem Firmware.handle_of_idle {firmware : Firmware} {event : FirmwareEvent}
    (receiver : Receiver) (idle : event.isAwaited firmware.stage = false) :
    firmware.handle receiver event = .ok (firmware, []) := by
  unfold Firmware.handle
  cases event <;> cases stage : firmware.stage <;> rw [stage] at idle <;>
    first
    | rfl
    | cases idle

theorem Provisioner.handle_of_idle {provisioner : Provisioner}
    {event : FirmwareEvent}
    (idle : event.isAwaited provisioner.stage = false) :
    provisioner.handle event = (provisioner, []) := by
  unfold Provisioner.handle
  cases event <;> cases stage : provisioner.stage <;> rw [stage] at idle <;>
    first
    | rfl
    | cases idle

section Steps

variable {firmware : Firmware} {provisioner : Provisioner}

/-- An event is handled, and the machine makes the same step. -/
def Simulates (receiver : Receiver) (firmware : Firmware)
    (provisioner : Provisioner) (event : FirmwareEvent) : Prop :=
  SimulatesStep (Firmware.handle receiver) Provisioner.handle
    (List.map FirmwareCall.seen) Refines firmware provisioner event

theorem Refines.boot (refines : Refines firmware provisioner)
    (receiver : Receiver) (stage : firmware.stage = .resets)
    (answers : BootAnswers) :
    Simulates receiver firmware provisioner (.boot answers) := by
  have machineStage := refines.stage.symm.trans stage
  have rebooted : Refines ⟨.resets, reset firmware.storage⟩
      { provisioner with stage := .resets, mounted := false } :=
    ⟨rfl, refines.text, rfl, refines.readable⟩
  obtain ⟨final, ended, booted, calls, related⟩ :=
    appMain_bootsAs rebooted answers
  rw [Simulates, SimulatesStep]
  simp only [Firmware.handle, Provisioner.handle, stage, machineStage,
    Firmware.boot, booted, bind, Except.bind]
  exact ⟨_, _, rfl, calls, related⟩

theorem Refines.reopen (refines : Refines firmware provisioner)
    (reopens : Bool) :
    Refines (firmware.reopenSocket reopens) (provisioner.reopen reopens) := by
  cases reopens with
  | true =>
      exact refines
  | false =>
      exact refines.moves .deleted

theorem Refines.datagram (refines : Refines firmware provisioner)
    (receiver : Receiver) (stage : firmware.stage = .serves)
    {bytes : List UInt8} (answers : DatagramAnswers)
    (storable : Storable bytes) :
    Simulates receiver firmware provisioner (.datagram bytes answers) := by
  have machineStage := refines.stage.symm.trans stage
  have returns := udpServerTask_returns receiver answers.rxBuffer
    firmware.storage answers.storage storable answers.sends
  have stored := refines.store storable.readable.1 storable.readable.2
    storable.fits answers.storage
  rw [Simulates, SimulatesStep]
  simp only [Firmware.handle, Provisioner.handle, stage, machineStage,
    Firmware.receive, Provisioner.receive, returns, bind, Except.bind]
  by_cases sends : answers.sends
  · simp only [if_pos sends]
    exact ⟨_, _, rfl, rfl, stored.moves .resets⟩
  · simp only [if_neg sends]
    rw [stage] at stored
    exact ⟨_, _, rfl, rfl, stored.reopen answers.reopens⟩

theorem Refines.simulates (refines : Refines firmware provisioner)
    (receiver : Receiver) {event : FirmwareEvent}
    (wellFormed : event.WellFormed) :
    Simulates receiver firmware provisioner event := by
  cases awaited : event.isAwaited firmware.stage with
  | false =>
      have machineIdle := awaited
      rw [refines.stage] at machineIdle
      rw [Simulates, SimulatesStep, Firmware.handle_of_idle receiver awaited,
        Provisioner.handle_of_idle machineIdle]
      exact ⟨firmware, [], rfl, rfl, refines⟩
  | true =>
      rcases FirmwareEvent.isAwaited_cases awaited with
        isReset | ⟨answers, isBoot, stage⟩ | ⟨reopens, isError, stage⟩ |
        ⟨bytes, answers, isDatagram, stage⟩
      · subst isReset
        exact ⟨_, _, rfl, rfl, refines.moves .resets⟩
      · subst isBoot
        exact refines.boot receiver stage answers
      · subst isError
        have reopened := refines.reopen reopens
        have machineStage := refines.stage.symm.trans stage
        rw [Simulates, SimulatesStep]
        simp only [Firmware.handle, Provisioner.handle, stage, machineStage]
        exact ⟨_, _, rfl, rfl, reopened⟩
      · subst isDatagram
        exact refines.datagram receiver stage answers wellFormed

end Steps

/-! ## Runs -/

section Runs

variable {receiver : Receiver} {firmware : Firmware}
  {provisioner : Provisioner}

/-- The event is handled, and its calls are those of the machine. -/
def ShowsCalls (receiver : Receiver) (firmware : Firmware)
    (provisioner : Provisioner) :
    List FirmwareEvent → FirmwareEvent → Prop :=
  ShowsOutput (Firmware.handle receiver) Provisioner.handle
    (List.map FirmwareCall.seen) firmware provisioner

theorem firmwareAfter_refines (refines : Refines firmware provisioner)
    {history : List FirmwareEvent}
    (wellFormed : ∀ event, event ∈ history → event.WellFormed) :
    ∃ final, firmwareAfter receiver firmware history = .ok final ∧
      Refines final (provisionerAfter provisioner history) :=
  after_refines refines
    (fun _ _ _ related allowed => related.simulates receiver allowed)
    wellFormed

theorem showsCalls_of_refines (refines : Refines firmware provisioner)
    {history : List FirmwareEvent}
    (wellFormed : ∀ event, event ∈ history → event.WellFormed) :
    AtEveryStep (ShowsCalls receiver firmware provisioner) history :=
  showsOutput_of_refines refines
    (fun _ _ _ related allowed => related.simulates receiver allowed)
    wellFormed

end Runs

/-- A device in front of its boot, with a text in its file. -/
def firmwareTold (text : List UInt8) : Firmware where
  stage := .resets
  storage := storageHolding wifiCredential text

theorem firmwareTold_refines {text : List UInt8} (nonempty : text ≠ [])
    (free : NulFree text)
    (fits : (fgetsRecords text.length text).length ≤ 3) :
    Refines (firmwareTold text) ⟨.resets, textOf text, false⟩ where
  stage := rfl
  text := by
    rw [firmwareTold, told, storageHolding]
    dsimp only
    rw [Function.update_self]
    rfl
  mounted := rfl
  readable := by
    intro content holds
    rw [firmwareTold, storageHolding] at holds
    dsimp only at holds
    rw [Function.update_self] at holds
    injection holds with isContent
    rw [← isContent]
    exact ⟨nonempty, free, fits⟩

/-- The connection fails, and the file cannot be opened to erase it. -/
def unerasedBoot : BootAnswers :=
  { failingBoot with
    write := { mountSucceeds := true, fopenSucceeds := false } }

/-- A text whose connection fails twice, since it is erased only the second
time, and the datagram that replaces it. -/
def failedHistory : List FirmwareEvent :=
  [.boot unerasedBoot, .boot failingBoot, .boot failingBoot,
    .datagram (ascii "cafe;87654321")
      { rxBuffer := Buffer.zero 128
        storage := { mountSucceeds := true, fopenSucceeds := true }
        sends := true
        reopens := true }]

theorem failedHistory_wellFormed :
    ∀ event, event ∈ failedHistory → event.WellFormed := by
  simp only [failedHistory, List.forall_mem_cons]
  exact ⟨trivial, trivial, trivial,
    ⟨by decide, by decide, by decide, by decide, by decide⟩,
    List.forall_mem_nil _⟩

def FirmwareEvent.isDatagram : FirmwareEvent → Bool
  | .datagram _ _ => true
  | _ => false

theorem Provisioner.reads_of_none {provisioner : Provisioner}
    (isNone : provisioner.text = none) (answers : BootAnswers) :
    provisioner.reads answers = none := by
  rw [reads, isNone, ite_self]

theorem Provisioner.boot_of_none {provisioner : Provisioner}
    (isNone : provisioner.text = none) (answers : BootAnswers) :
    provisioner.boot answers =
      ({ stage := .serves, text := none, mounted := false }, [.softap]) := by
  rw [boot, reads_of_none isNone, isNone]

theorem FirmwareEvent.wellFormed_of_no_datagram {event : FirmwareEvent}
    (noDatagram : event.isDatagram = false) : event.WellFormed := by
  cases event with
  | datagram bytes answers =>
      cases noDatagram
  | reset | boot _ | recvError _ =>
      trivial

/-- Until the next datagram, a machine that has been told nothing connects
with nothing. -/
theorem handle_of_told_nothing {provisioner : Provisioner}
    (isNone : provisioner.text = none) {event : FirmwareEvent}
    (noDatagram : event.isDatagram = false) :
    (provisioner.handle event).1.text = none ∧
      ∀ pair, .connect pair ∉ (provisioner.handle event).2 := by
  cases event with
  | reset =>
      exact ⟨isNone, fun _ => List.not_mem_nil⟩
  | boot answers =>
      cases stage : provisioner.stage <;>
        simp [Provisioner.handle, stage, isNone,
          Provisioner.boot_of_none isNone answers]
  | recvError reopens =>
      cases stage : provisioner.stage <;> cases reopens <;>
        simp [Provisioner.handle, Provisioner.reopen, stage, isNone]
  | datagram bytes answers =>
      cases noDatagram

theorem provisionerAfter_told_nothing {provisioner : Provisioner}
    (isNone : provisioner.text = none) {history : List FirmwareEvent}
    (noDatagram : ∀ event, event ∈ history → event.isDatagram = false) :
    (provisionerAfter provisioner history).text = none := by
  induction history using List.reverseRecOn with
  | nil =>
      exact isNone
  | append_singleton front event inductionHypothesis =>
      rw [List.forall_mem_append, List.forall_mem_singleton] at noDatagram
      have stays := inductionHypothesis noDatagram.1
      rw [provisionerAfter, final_concat]
      exact (handle_of_told_nothing stays noDatagram.2).1

/-- The event calls `wifi_init_sta`. -/
def Connects (receiver : Receiver) (firmware : Firmware)
    (front : List FirmwareEvent) (event : FirmwareEvent) : Prop :=
  ∃ middle next calls call,
    firmwareAfter receiver firmware front = .ok middle ∧
      middle.handle receiver event = .ok (next, calls) ∧
      .connect call ∈ calls

/-- The boot is one, and comes to no connection. -/
def Fails (receiver : Receiver) (firmware : Firmware)
    (front : List FirmwareEvent) (answers : BootAnswers) : Prop :=
  ∃ middle,
    firmwareAfter receiver firmware front = .ok middle ∧
      middle.stage = .resets ∧ answers.bits.connected = false

/-- Behind a boot without a connection that gets the file open both times, the
machine has been told nothing. -/
theorem provisioner_boot_fails {provisioner : Provisioner}
    {answers : BootAnswers} (succeed : answers.Succeed)
    (fails : answers.bits.connected = false) :
    (provisioner.boot answers).1.text = none := by
  have reads : provisioner.reads answers = provisioner.text :=
    if_pos (StorageAnswers.opens_iff.mpr succeed.read)
  have erases : answers.write.opens false = true :=
    StorageAnswers.opens_iff.mpr succeed.write
  cases isText : provisioner.text with
  | none =>
      rw [isText] at reads
      simp only [Provisioner.boot, reads, isText]
  | some text =>
      rw [isText] at reads
      simp only [Provisioner.boot, reads, fails, Provisioner.store, erases,
        if_neg Bool.false_ne_true, if_true]
      split
      · split <;> rfl
      · rfl

theorem failingBoot_succeed : failingBoot.Succeed :=
  ⟨⟨rfl, rfl⟩, ⟨rfl, rfl⟩⟩

/-- A boot that gets the file open to erase it serves, or leaves a machine
that has been told nothing. -/
theorem provisioner_boot_cases (provisioner : Provisioner)
    {answers : BootAnswers} (erases : answers.write.Succeed) :
    (provisioner.boot answers).1.mounted = false ∧
      ((provisioner.boot answers).1.stage = .serves ∨
        (provisioner.boot answers).1.stage = .resets ∧
          (provisioner.boot answers).1.text = none) := by
  have opens : answers.write.opens false = true :=
    StorageAnswers.opens_iff.mpr erases
  have leaves : answers.write.leavesMounted false = false := by
    rw [StorageAnswers.leavesMounted, erases.2, Bool.not_true,
      Bool.and_false, Bool.or_false]
  simp only [Provisioner.boot, Provisioner.store, opens, leaves]
  split
  · exact ⟨rfl, Or.inl rfl⟩
  · split
    · split
      · exact ⟨rfl, Or.inl rfl⟩
      · split
        · exact ⟨rfl, Or.inr ⟨rfl, rfl⟩⟩
        · exact ⟨rfl, Or.inl rfl⟩
    · exact ⟨rfl, Or.inr ⟨rfl, rfl⟩⟩

/-- A power cycle and two boots. -/
def recovery (first second : BootAnswers) : List FirmwareEvent :=
  [.reset, .boot first, .boot second]

theorem provisionerAfter_recovery (provisioner : Provisioner)
    {first : BootAnswers} (erases : first.write.Succeed)
    (second : BootAnswers) :
    (provisionerAfter provisioner (recovery first second)).stage = .serves ∧
      (provisionerAfter provisioner (recovery first second)).mounted =
        false := by
  have resetFirst :
      provisionerAfter provisioner (recovery first second) =
        ((Provisioner.boot { provisioner with stage := .resets }
          first).1.handle (.boot second)).1 :=
    rfl
  rw [resetFirst]
  obtain ⟨unmounted, serves | ⟨again, silent⟩⟩ := provisioner_boot_cases
    { provisioner with stage := .resets } erases
  · rw [Provisioner.handle_of_idle (by rw [serves]; rfl)]
    exact ⟨serves, unmounted⟩
  · have softap := Provisioner.boot_of_none silent second
    simp only [Provisioner.handle, again, softap, and_self]

/-- A provisioner that listens takes the text, and boots next. -/
theorem Provisioner.handle_takes {provisioner : Provisioner}
    {bytes text : List UInt8} {answers : DatagramAnswers}
    (serves : provisioner.stage = .serves)
    (unmounted : provisioner.mounted = false)
    (isText : textOf (writtenFor bytes) = some text)
    (stores : answers.storage.Succeed) (sends : answers.sends = true) :
    (provisioner.handle (.datagram bytes answers)).1.stage = .resets ∧
      (provisioner.handle (.datagram bytes answers)).1.text = some text := by
  have opens : answers.storage.opens false = true :=
    StorageAnswers.opens_iff.mpr stores
  simp only [Provisioner.handle, serves, Provisioner.receive,
    Provisioner.store, unmounted, opens, isText, if_pos sends, if_true,
    and_self]

/-- A boot that reads credentials connects with them. -/
theorem Provisioner.handle_connects {provisioner : Provisioner}
    {text : List UInt8} {answers : BootAnswers}
    (resets : provisioner.stage = .resets)
    (isText : provisioner.text = some text) (separated : separator ∈ text)
    (readsBack : answers.read.Succeed) :
    ∃ others, (provisioner.handle (.boot answers)).2 =
      .connect (pairOf text) :: others := by
  have reads : provisioner.reads answers = some text := by
    rw [Provisioner.reads, if_pos (StorageAnswers.opens_iff.mpr readsBack)]
    exact isText
  simp only [Provisioner.handle, resets, Provisioner.boot, reads,
    if_pos separated]
  split
  · exact ⟨_, rfl⟩
  · split <;> exact ⟨_, rfl⟩

theorem FirmwareCall.connect_of_seen {calls : List FirmwareCall}
    {pair : List UInt8 × List UInt8} {others : List ProvisionerCall}
    (seen : calls.map FirmwareCall.seen = .connect pair :: others) :
    ∃ call rest, calls = .connect call :: rest ∧ call.pair = pair := by
  cases calls with
  | nil =>
      cases seen
  | cons made rest =>
      injection seen with isMade _
      cases made with
      | connect call =>
          injection isMade with isPair
          exact ⟨call, rest, rfl, isPair⟩
      | softap =>
          cases isMade
      | restart =>
          cases isMade
      | sendto bytes =>
          cases isMade

/-- The credentials reach the driver: the text is written as it is, and read
as its two parts. -/
theorem textOf_datagramOf {ssid pwd : List UInt8}
    {remark : Option (List UInt8)} (provisions : Provisions ssid pwd remark)
    (safe : PercentSafe ssid pwd remark) :
    Storable (datagramOf ssid pwd remark) ∧
      ∃ text,
        textOf (writtenFor (datagramOf ssid pwd remark)) = some text ∧
          separator ∈ text ∧ pairOf text = (ssid, pwd) := by
  obtain ⟨ssidSafe, pwdSafe, remarkSafe⟩ := safe
  obtain ⟨remarkWritten, remarkFormatted⟩ :=
    (remark_formatted_iff remark).mpr remarkSafe
  have ssidFormatted := formatOutput_of_plain ssidSafe
  have pwdFormatted := formatOutput_of_plain pwdSafe
  have formatted := formatOutput_datagramOf_iff.mpr
    ⟨ssid, pwd, remarkWritten, ssidFormatted, pwdFormatted, remarkFormatted,
      rfl⟩
  have arrives :=
    provisions.written ssidFormatted pwdFormatted formatted
  have isWritten : writtenFor (datagramOf ssid pwd remark) =
      datagramOf ssid pwd remarkWritten := by
    rw [writtenFor, formatted]
  have separated := separator_mem_datagramOf ssid pwd remarkWritten
  have oneRecord := fgetsRecords_of_line (List.ne_nil_of_mem separated)
    arrives.short arrives.oneLine
  refine ⟨?_, datagramOf ssid pwd remarkWritten, ?_, separated, ?_⟩
  · refine ⟨List.ne_nil_of_mem (separator_mem_datagramOf ssid pwd remark),
      provisions.short, provisions.free,
      (formatOutput_isOk_iff _).mp ⟨_, formatted⟩, ?_⟩
    rw [isWritten, oneRecord, List.length_singleton]
    decide
  · rw [isWritten, textOf,
      fgetsRecord_of_line arrives.short arrives.oneLine, if_neg]
    intro marker
    rw [marker] at separated
    exact absurd separated (by decide)
  · rw [pairOf, datagramSsid_datagramOf arrives.ssidPlain,
      datagramPasswd_datagramOf arrives.ssidPlain arrives.pwdPlain,
      List.take_of_length_le arrives.ssidShort,
      List.take_of_length_le (Nat.le_succ_of_le arrives.pwdShort)]

end Esp32Source.UdpServerOriginal
