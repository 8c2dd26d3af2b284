import Esp32Source.Machine.Refinement
import Esp32Source.UdpServerOld.Device

/-!
# What the old server is for

Seen from outside, the device has credentials and tries them: a datagram gives
it new ones, a boot connects with what it has, a connection that fails makes
it an access point.  `Provision` is this machine without buffers, files and
records, and the device does what it does, step by step.

The machine shows two things that the program is not meant to do.  A
connection that is made takes the credentials away again, and a device that
has become an access point is never given any, since the driver refuses a
station configuration there.
-/

namespace Esp32Source.UdpServerOld

open Memory Machine UdpServer Wifi
open UdpServerOriginal (wifiIsWrong strcmpIsZero reset Readable)

/-! ## The machine -/

/-- A name and a password. -/
abbrev Pair := List UInt8 × List UInt8

/-- `tries` says that the next boot connects, and `mounted` that the partition
was left mounted, so that no file can be opened up to then. -/
structure Provision where
  stage : Stage
  tries : Bool
  mounted : Bool
  credentials : Pair
  deriving DecidableEq, Repr

inductive ProvisionCall where
  | softap
  | connect (credentials : Pair)
  | configure (credentials : Pair)
  | reply
  | other
  deriving DecidableEq, Repr

def datagramPair (bytes : List UInt8) : Pair :=
  (datagramSsid bytes, datagramPasswd bytes)

def configPair (config : StaConfig) : Pair :=
  (ssidText config.lead, passwordText config.lead)

/-- What is seen of a call. -/
def DeviceCall.seen : DeviceCall → ProvisionCall
  | .softap => .softap
  | .connect config => .connect (configPair config)
  | .task (.wifiSetConfig config) => .configure (configPair config)
  | .task (.sendto _) => .reply
  | .task _ => .other

/-- Behind a reply, up to the first call that fails. -/
def configureAgain (credentials : Pair) (answers : TaskAnswers) :
    List ProvisionCall :=
  if ¬ answers.stops then [.other]
  else if ¬ answers.setsMode then [.other, .other]
  else if ¬ answers.setsConfig then [.other, .other, .configure credentials]
  else [.other, .other, .configure credentials, .other]

def Provision.reopen (provision : Provision) (reopens : Bool) : Provision :=
  if reopens then provision else { provision with stage := .deleted }

/-- The machine is to try its credentials or not, from the next boot on. -/
def Provision.store (provision : Provision) (tries : Bool)
    (answers : StorageAnswers) : Provision :=
  { provision with
    tries := if answers.opens provision.mounted then tries else provision.tries
    mounted := answers.leavesMounted provision.mounted }

def Provision.receive (provision : Provision) (given : Pair)
    (answers : DatagramAnswers) : Provision × List ProvisionCall :=
  if ¬ answers.accepts then
    ({ provision with stage := .resets }, [.configure given])
  else
    let provision :=
      { provision.store true answers.storage with credentials := given }
    if answers.sends then
      ({ provision with stage := .resets },
        .configure given :: .reply ::
          configureAgain given answers.toTaskAnswers)
    else
      (provision.reopen answers.reopens, [.configure given, .reply])

def Provision.waitReturns (provision : Provision) (bits : EventBits)
    (accepts : Bool) (write : StorageAnswers) :
    Provision × List ProvisionCall :=
  if bits.connected then
    if accepts then
      ({ provision with
          stage := .receiving .sta, credentials := ([], []) },
        [.configure ([], [])])
    else ({ provision with stage := .resets }, [.configure ([], [])])
  else if bits.failed then
    ({ provision.store false write with stage := .resets }, [.other])
  else ({ provision with stage := .receiving .sta }, [])

def Provision.boot (provision : Provision) (answers : BootAnswers) :
    Provision × List ProvisionCall :=
  let booted := { provision with mounted := false }
  if ¬ answers.starts then (booted, [])
  else if provision.tries && answers.read.opens false then
    ({ booted with stage := .connecting }, [.connect booted.credentials])
  else ({ booted with stage := .receiving .ap }, [.softap])

def Provision.handle (provision : Provision) (event : DeviceEvent) :
    Provision × List ProvisionCall :=
  match event, provision.stage with
  | .reset, _ => ({ provision with stage := .resets }, [])
  | .boot answers, .resets => provision.boot answers
  | .waitReturns bits accepts write, .connecting =>
      provision.waitReturns bits accepts write
  | .recvError reopens, .receiving _ => (provision.reopen reopens, [])
  | .datagram bytes answers, .receiving _ =>
      provision.receive (datagramPair bytes) answers
  | _, _ => (provision, [])

def provisionAfter (provision : Provision) (history : List DeviceEvent) :
    Provision :=
  final Provision.handle provision history

/-! ## The device does what the machine does -/

/-- A datagram brings credentials.  The storage calls may go any way. -/
def DeviceEvent.WellFormed : DeviceEvent → Prop
  | .datagram bytes _ => Credentials bytes
  | _ => True

/-- The file says whether the next boot connects. -/
structure Chooses (storage : Storage) (tries : Bool) : Prop where
  readable : Readable storage
  tries : tries = true ↔ ∃ content,
    storage.files wifiCredential = some content ∧
      fgetsRecord content ≠ wifiIsWrong

structure Refines (device : Device) (provision : Provision) : Prop where
  stage : device.stage = provision.stage
  credentials : configPair device.stored = provision.credentials
  chooses : Chooses device.storage provision.tries
  mounted : device.storage.mounted = provision.mounted
  blank : device.stage = .connecting → device.wifiConfig2 = StaConfig.zero

theorem chooses_of_written {storage : Storage} {text : List UInt8}
    (nonempty : text ≠ []) (free : NulFree text) (short : text.length ≤ 127)
    (oneLine : 10 ∉ text)
    (holds : storage.files wifiCredential = some text) :
    Chooses storage (decide (text ≠ wifiIsWrong)) where
  readable := by
    intro content isContent
    rw [holds] at isContent
    injection isContent with isText
    rw [← isText]
    refine ⟨nonempty, free, ?_⟩
    rw [fgetsRecords_of_line nonempty short oneLine]
    simp
  tries := by
    rw [decide_eq_true_iff]
    constructor
    · intro other
      refine ⟨text, holds, ?_⟩
      rw [fgetsRecord_of_line short oneLine]
      exact other
    · intro tries
      obtain ⟨content, isContent, other⟩ := tries
      rw [holds] at isContent
      injection isContent with isText
      rw [← isText, fgetsRecord_of_line short oneLine] at other
      exact other

/-- A write that is asked for changes the choice, if the file is opened. -/
theorem Chooses.written {storage : Storage} {tries : Bool}
    (chooses : Chooses storage tries) {text : List UInt8}
    (nonempty : text ≠ []) (free : NulFree text) (short : text.length ≤ 127)
    (oneLine : 10 ∉ text) (answers : StorageAnswers) :
    Chooses (storage.written wifiCredential text answers)
      (if answers.opens storage.mounted then decide (text ≠ wifiIsWrong)
        else tries) := by
  by_cases opens : answers.opens storage.mounted
  · rw [if_pos opens]
    apply chooses_of_written nonempty free short oneLine
    rw [Storage.written, if_pos opens]
    dsimp only
    rw [Function.update_self]
  · rw [if_neg opens, Storage.written, if_neg opens]
    exact ⟨chooses.readable, chooses.tries⟩

/-! ### Boots -/

/-- The file decides how the boot goes on, if it can be read. -/
theorem appMain_chooses {device : Device} {tries : Bool}
    (chooses : Chooses device.storage tries) (answers : BootAnswers) :
    device.appMain answers =
      .ok (let booted := { device with
              storage := reset device.storage,
              rxBuffer := answers.rxBuffer, wifiConfig2 := StaConfig.zero }
        if tries && answers.read.opens false then
          booted.wifiInitSta answers.starts
        else booted.wifiInitSoftap answers.starts) := by
  have unmounted : (reset device.storage).mounted = false :=
    rfl
  rw [Device.appMain]
  cases opens : answers.read.opens false with
  | false =>
      obtain ⟨mount, read⟩ :=
        wearLevellingStorageRead_fails unmounted opens wifiCredential
      rw [read, Bool.and_false]
      rfl
  | true =>
      have succeed := StorageAnswers.opens_iff.mp opens
      rw [Bool.and_true]
      cases holds : (reset device.storage).files wifiCredential with
      | none =>
          have notTries : tries = false := by
            rw [← Bool.not_eq_true, chooses.tries]
            intro found
            obtain ⟨content, isContent, _⟩ := found
            have conflict := holds.symm.trans isContent
            cases conflict
          rw [wearLevellingStorageRead_absent unmounted succeed holds,
            notTries]
          rfl
      | some content =>
          obtain ⟨nonempty, free, fits⟩ := chooses.readable content holds
          obtain ⟨row, behind, read, size, shape⟩ :=
            wearLevellingStorageRead_row unmounted succeed holds nonempty
              fits
          obtain ⟨line, rest, stored, cells⟩ :=
            UdpServerOriginal.row_stored answers.memory size shape
          have recordFree : NulFree (fgetsRecord content) :=
            fun byte member =>
              free byte ((fgetsRecord_isPrefixOf content).subset member)
          have isMarker : strcmpIsZero line wifiIsWrong = true ↔
              fgetsRecord content = wifiIsWrong :=
            UdpServerOriginal.strcmpIsZero_iff cells recordFree
              UdpServerOriginal.wifiIsWrong_free
          rw [read]
          dsimp only [bind, Except.bind]
          rw [stored]
          dsimp only
          by_cases marker : fgetsRecord content = wifiIsWrong
          · have notTries : tries = false := by
              rw [← Bool.not_eq_true, chooses.tries]
              intro found
              obtain ⟨other, isOther, different⟩ := found
              have same := holds.symm.trans isOther
              injection same with isContent
              rw [← isContent] at different
              exact different marker
            rw [if_pos (isMarker.mpr marker), notTries]
            rfl
          · have doesTry : tries = true :=
              chooses.tries.mpr ⟨content, holds, marker⟩
            rw [if_neg (marker ∘ isMarker.mp), doesTry]
            rfl

/-- An event is handled, and the machine makes the same step. -/
def Simulates (device : Device) (provision : Provision)
    (event : DeviceEvent) : Prop :=
  SimulatesStep Device.handle Provision.handle (List.map DeviceCall.seen)
    Refines device provision event

/-- The device waits for such an event. -/
def DeviceEvent.isAwaited : DeviceEvent → Stage → Bool
  | .reset, _ => true
  | .boot _, .resets => true
  | .waitReturns _ _ _, .connecting => true
  | .recvError _, .receiving _ => true
  | .datagram _ _, .receiving _ => true
  | _, _ => false

theorem isAwaited_cases {event : DeviceEvent} {stage : Stage}
    (awaited : event.isAwaited stage = true) :
    event = .reset ∨
      (∃ answers, event = .boot answers ∧ stage = .resets) ∨
      (∃ bits accepts write,
        event = .waitReturns bits accepts write ∧ stage = .connecting) ∨
      (∃ reopens mode,
        event = .recvError reopens ∧ stage = .receiving mode) ∨
      ∃ bytes answers mode,
        event = .datagram bytes answers ∧ stage = .receiving mode := by
  cases event <;> cases stage <;> simp_all [DeviceEvent.isAwaited]

theorem Device.handle_of_idle {device : Device} {event : DeviceEvent}
    (idle : event.isAwaited device.stage = false) :
    device.handle event = .ok (device, []) := by
  unfold Device.handle
  cases event <;> cases stage : device.stage <;> rw [stage] at idle <;>
    first
    | rfl
    | cases idle

theorem Provision.handle_of_idle {provision : Provision}
    {event : DeviceEvent}
    (idle : event.isAwaited provision.stage = false) :
    provision.handle event = (provision, []) := by
  unfold Provision.handle
  cases event <;> cases stage : provision.stage <;> rw [stage] at idle <;>
    first
    | rfl
    | cases idle

section Steps

variable {device : Device} {provision : Provision}

theorem Refines.simulates_of_idle (refines : Refines device provision)
    {event : DeviceEvent} (idle : event.isAwaited device.stage = false) :
    Simulates device provision event := by
  have machineIdle := idle
  rw [refines.stage] at machineIdle
  rw [Simulates, SimulatesStep, Device.handle_of_idle idle,
    Provision.handle_of_idle machineIdle]
  exact ⟨device, [], rfl, rfl, refines⟩

theorem Refines.boot (refines : Refines device provision)
    (stage : device.stage = .resets) (answers : BootAnswers) :
    Simulates device provision (.boot answers) := by
  have machineStage := refines.stage.symm.trans stage
  have booted (next : Stage) :
      Refines
        { device with
          stage := next, rxBuffer := answers.rxBuffer,
          wifiConfig2 := StaConfig.zero, storage := reset device.storage }
        { provision with stage := next, mounted := false } :=
    ⟨rfl, refines.credentials,
      ⟨refines.chooses.readable, refines.chooses.tries⟩, rfl,
      fun _ => rfl⟩
  have connects :
      [DeviceCall.connect device.stored].map DeviceCall.seen =
        [.connect provision.credentials] :=
    congrArg (fun pair => [ProvisionCall.connect pair]) refines.credentials
  have chosen := appMain_chooses refines.chooses answers
  have resets := booted .resets
  rw [Simulates, SimulatesStep]
  simp only [Device.handle, Provision.handle, stage, machineStage,
    Provision.boot, chosen, Device.wifiInitSta, Device.wifiInitSoftap]
  by_cases starts : answers.starts
  · by_cases tries : (provision.tries && answers.read.opens false) = true
    · simp only [if_pos tries, starts, not_true, if_false]
      exact ⟨_, _, rfl, connects, booted .connecting⟩
    · simp only [if_neg tries, starts, not_true, if_false]
      exact ⟨_, _, rfl, rfl, booted (.receiving .ap)⟩
  · simp only [if_neg starts, if_pos starts, ite_self]
    exact ⟨_, _, rfl, rfl, resets⟩

/-- A device that waits for no connection moves as its machine does. -/
theorem Refines.moves (refines : Refines device provision) {stage : Stage}
    (other : stage ≠ .connecting) :
    Refines { device with stage } { provision with stage } :=
  ⟨rfl, refines.credentials, refines.chooses, refines.mounted,
    fun isConnecting => absurd isConnecting other⟩

/-- A write that is asked for, with what the machine makes of it. -/
theorem Refines.store (refines : Refines device provision)
    {text : List UInt8} {tries : Bool} (nonempty : text ≠ [])
    (free : NulFree text) (short : text.length ≤ 127) (oneLine : 10 ∉ text)
    (isTries : tries = decide (text ≠ wifiIsWrong))
    (answers : StorageAnswers) :
    Refines
      { device with
        storage := device.storage.written wifiCredential text answers }
      (provision.store tries answers) := by
  have chooses :=
    refines.chooses.written nonempty free short oneLine answers
  rw [← isTries, refines.mounted] at chooses
  refine ⟨refines.stage, refines.credentials, chooses, ?_, refines.blank⟩
  rw [Storage.written, Provision.store, refines.mounted]

theorem Refines.waitReturns (refines : Refines device provision)
    (stage : device.stage = .connecting) (bits : EventBits)
    (accepts : Bool) (write : StorageAnswers) :
    Simulates device provision (.waitReturns bits accepts write) := by
  have machineStage := refines.stage.symm.trans stage
  have isBlank := refines.blank stage
  obtain ⟨reply, erases⟩ := wearLevellingStorage_written device.storage
    wifiCredential UdpServerOriginal.formatOutput_wifiIsWrong write
  have erased := refines.store (by decide)
    UdpServerOriginal.wifiIsWrong_free (by decide) (by decide)
    (show false = decide (wifiIsWrong ≠ wifiIsWrong) by decide) write
  rw [Simulates, SimulatesStep]
  simp only [Device.handle, Provision.handle, stage, machineStage,
    Device.waitReturns, Provision.waitReturns]
  by_cases connected : bits.connected
  · simp only [if_pos connected, isBlank]
    cases accepts with
    | true =>
        exact ⟨_, _, rfl, rfl, rfl, rfl, refines.chooses, refines.mounted,
          Stage.noConfusion⟩
    | false =>
        exact ⟨_, _, rfl, rfl, rfl, refines.credentials, refines.chooses,
          refines.mounted, Stage.noConfusion⟩
  · simp only [if_neg connected]
    by_cases failed : bits.failed
    · simp only [if_pos failed, erases, bind, Except.bind]
      exact ⟨_, _, rfl, rfl, erased.moves Stage.noConfusion⟩
    · simp only [if_neg failed]
      exact ⟨_, _, rfl, rfl, refines.moves Stage.noConfusion⟩

theorem Refines.reopen (refines : Refines device provision)
    (reopens : Bool) :
    Refines (device.reopenSocket reopens) (provision.reopen reopens) := by
  cases reopens with
  | true =>
      exact refines
  | false =>
      exact refines.moves Stage.noConfusion

/-- The text that stands for credentials that were given. -/
def testCredentials : List UInt8 := ascii "test wifi credentials"

theorem formatOutput_testCredentials :
    formatOutput (cText testCredentials) = .ok testCredentials :=
  rfl

theorem seen_reconfigure (config : StaConfig) (answers : TaskAnswers) :
    ((reconfigure config answers).2.map DeviceCall.task).map
        DeviceCall.seen =
      configureAgain (configPair config) answers := by
  rw [reconfigure, configureAgain]
  split
  · rfl
  · split
    · rfl
    · split <;> rfl

/-- The strings of a datagram are copied to `wifi_config2`. -/
theorem receive_copies (device : Device) {bytes : List UInt8}
    (credentials : Credentials bytes) :
    ∃ received terminated tokens config,
      device.rxBuffer.store 0 bytes = .ok received ∧
        received.store bytes.length [0] = .ok terminated ∧
        copyCredentials terminated device.wifiConfig2 =
          .ok (tokens, config) ∧
        configPair config = datagramPair bytes := by
  have short := credentials.length_le
  obtain ⟨received, terminated, first, second, cells⟩ :=
    device.rxBuffer.terminate_of_fits bytes (by omega)
  obtain ⟨stop, behind, ends, cut⟩ := credentials.terminated
    (device.rxBuffer.cells.drop (bytes.length + 1))
  obtain ⟨tokens, lead, copied, name, password⟩ :=
    copyCredentials_copies device.wifiConfig2 (cells.trans cut)
      (List.ne_nil_of_length_pos credentials.ssidNonempty)
      (List.ne_nil_of_length_pos credentials.passwdNonempty)
      (fun byte member => ⟨credentials.ssidFree byte member,
        by simpa using ne_separator_of_mem_datagramSsid member⟩)
      (fun byte member => ⟨credentials.passwdFree byte member,
        by simpa using ne_separator_of_mem_datagramPasswd member⟩)
      ends credentials.ssidShort credentials.passwdShort
  refine ⟨received, terminated, tokens, _, first, second, copied, ?_⟩
  rw [configPair, name, password]
  rfl

theorem Refines.datagram (refines : Refines device provision)
    {mode : WifiMode} (stage : device.stage = .receiving mode)
    {bytes : List UInt8} (answers : DatagramAnswers)
    (credentials : Credentials bytes) :
    Simulates device provision (.datagram bytes answers) := by
  have machineStage := refines.stage.symm.trans stage
  obtain ⟨received, terminated, tokens, config, first, second, copied,
    isPair⟩ := receive_copies device credentials
  obtain ⟨reply, writes⟩ := wearLevellingStorage_written device.storage
    wifiCredential formatOutput_testCredentials answers.storage
  have written := refines.store (by decide) (by decide) (by decide)
    (by decide) (show true = decide (testCredentials ≠ wifiIsWrong) by decide)
    answers.storage
  have echoed := tokens.load_of_fits 0 bytes.length
    (Buffer.store_eq_ok_iff.mp first).1
  have seenConfig :
      DeviceCall.seen (.task (.wifiSetConfig config)) =
        .configure (datagramPair bytes) :=
    congrArg ProvisionCall.configure isPair
  -- behind a configuration that the driver takes
  have given :
      Refines
        { stage := .receiving mode, rxBuffer := tokens,
          wifiConfig2 := config,
          storage := device.storage.written wifiCredential testCredentials
            answers.storage,
          stored := config }
        { provision.store true answers.storage with
          credentials := datagramPair bytes } :=
    ⟨machineStage.symm, isPair, written.chooses, written.mounted,
      Stage.noConfusion⟩
  rw [Simulates, SimulatesStep]
  simp only [Device.handle, Provision.handle, stage, machineStage,
    Device.receive, Provision.receive, first, second, copied, bind,
    Except.bind]
  by_cases refused : ¬ answers.accepts
  · simp only [if_pos refused]
    refine ⟨_, _, rfl, ?_, rfl, refines.credentials, refines.chooses,
      refines.mounted, Stage.noConfusion⟩
    rw [List.map_cons, seenConfig]
    rfl
  · simp only [if_neg refused]
    rw [testCredentials] at writes
    simp only [writes, echoed]
    by_cases sends : answers.sends
    · simp only [if_pos sends]
      refine ⟨_, _, rfl, ?_, given.moves Stage.noConfusion⟩
      rw [List.map_cons, List.map_cons, seen_reconfigure, seenConfig,
        isPair]
      rfl
    · simp only [if_neg sends]
      refine ⟨_, _, rfl, ?_, given.reopen answers.reopens⟩
      rw [List.map_cons, seenConfig]
      rfl

theorem Refines.recvError (refines : Refines device provision)
    {mode : WifiMode} (stage : device.stage = .receiving mode)
    (reopens : Bool) :
    Simulates device provision (.recvError reopens) := by
  have machineStage := refines.stage.symm.trans stage
  have reopened := refines.reopen reopens
  rw [Simulates, SimulatesStep]
  simp only [Device.handle, Provision.handle, stage, machineStage]
  exact ⟨_, _, rfl, rfl, reopened⟩

/-- Every event of credentials is handled as the machine handles it. -/
theorem Refines.simulates (refines : Refines device provision)
    {event : DeviceEvent} (wellFormed : event.WellFormed) :
    Simulates device provision event := by
  cases awaited : event.isAwaited device.stage with
  | false =>
      exact refines.simulates_of_idle awaited
  | true =>
      rcases isAwaited_cases awaited with
        isReset | ⟨answers, isBoot, stage⟩ |
        ⟨bits, accepts, write, isWait, stage⟩ |
        ⟨reopens, mode, isError, stage⟩ |
        ⟨bytes, answers, mode, isDatagram, stage⟩
      · subst isReset
        exact ⟨_, _, rfl, rfl, refines.moves Stage.noConfusion⟩
      · subst isBoot
        exact refines.boot stage answers
      · subst isWait
        exact refines.waitReturns stage bits accepts write
      · subst isError
        exact refines.recvError stage reopens
      · subst isDatagram
        exact refines.datagram stage answers wellFormed

end Steps

/-! ## Runs -/

/-- The event is handled, and its calls are those of the machine. -/
def ShowsCalls (device : Device) (provision : Provision) :
    List DeviceEvent → DeviceEvent → Prop :=
  ShowsOutput Device.handle Provision.handle (List.map DeviceCall.seen)
    device provision

theorem deviceAfter_refines {device : Device} {provision : Provision}
    (refines : Refines device provision) {history : List DeviceEvent}
    (wellFormed : ∀ event, event ∈ history → event.WellFormed) :
    ∃ final, deviceAfter device history = .ok final ∧
      Refines final (provisionAfter provision history) :=
  after_refines refines
    (fun _ _ _ related allowed => related.simulates allowed) wellFormed

theorem showsCalls_of_refines {device : Device} {provision : Provision}
    (refines : Refines device provision) {history : List DeviceEvent}
    (wellFormed : ∀ event, event ∈ history → event.WellFormed) :
    AtEveryStep (ShowsCalls device provision) history :=
  showsOutput_of_refines refines
    (fun _ _ _ related allowed => related.simulates allowed) wellFormed

/-- In every run with credentials in its datagrams, whatever boots, failures
of the storage and power cycles come in between, the device goes on without a
fault, is in the state of the machine, and makes its calls. -/
theorem device_refines_provision (device : Device) (provision : Provision)
    (history : List DeviceEvent) (refines : Refines device provision)
    (wellFormed : ∀ event, event ∈ history → event.WellFormed) :
    (∃ final, deviceAfter device history = .ok final ∧
        Refines final (provisionAfter provision history)) ∧
      AtEveryStep (ShowsCalls device provision) history :=
  ⟨deviceAfter_refines refines wellFormed,
    showsCalls_of_refines refines wellFormed⟩

/-- A device in front of its boot, whose driver keeps nothing. -/
def blankDevice (storage : Storage) : Device where
  stage := .resets
  rxBuffer := Buffer.zero 128
  wifiConfig2 := StaConfig.zero
  storage
  stored := StaConfig.zero

theorem configPair_zero : configPair StaConfig.zero = ([], []) := by
  decide +kernel

theorem blankDevice_refines {storage : Storage} {tries : Bool}
    (chooses : Chooses storage tries) :
    Refines (blankDevice storage)
      { stage := .resets, tries, mounted := storage.mounted,
        credentials := ([], []) } where
  stage := rfl
  credentials := configPair_zero
  chooses
  mounted := rfl
  blank := fun _ => rfl

/-- The file behind an accepted datagram. -/
def givenStorage : Storage :=
  storageHolding wifiCredential testCredentials

theorem chooses_givenStorage : Chooses givenStorage true := by
  have holds : givenStorage.files wifiCredential = some testCredentials := by
    rw [givenStorage, storageHolding]
    dsimp only
    rw [Function.update_self]
  exact chooses_of_written (by decide) (by decide) (by decide) (by decide)
    holds

/-- A boot at which every call succeeds. -/
def smoothBoot : DeviceEvent :=
  .boot {
    read := { mountSucceeds := true, fopenSucceeds := true }
    memory := Buffer.zero 192
    rxBuffer := Buffer.zero 128
    starts := true }

/-- A connection that is made, with nothing to write. -/
def connectionMade : DeviceEvent :=
  .waitReturns { connected := true, failed := false } true
    { mountSucceeds := true, fopenSucceeds := true }

def credentialsAccepted : DeviceEvent :=
  .datagram (ascii "home;secret")
    { lostEcho with sends := true, accepts := true }

/-- A connection that fails, behind which the file cannot be opened. -/
def connectionFailed : DeviceEvent :=
  .waitReturns { connected := false, failed := true } true
    { mountSucceeds := true, fopenSucceeds := false }

/-- A station that is given credentials, up to the boot that tries them once
more, since the file still says so. -/
def givenHistory : List DeviceEvent :=
  [smoothBoot, connectionMade, credentialsAccepted, smoothBoot,
    connectionFailed, smoothBoot]

theorem givenHistory_wellFormed :
    ∀ event, event ∈ givenHistory → event.WellFormed := by
  simp only [givenHistory, List.forall_mem_cons]
  exact ⟨trivial, trivial,
    ⟨by decide, by decide, by decide, by decide, by decide, by decide,
      by decide⟩,
    trivial, trivial, trivial, List.forall_mem_nil _⟩

theorem device_refines_provision_givenHistory :
    (∃ final,
        deviceAfter (blankDevice givenStorage) givenHistory = .ok final ∧
          Refines final
            { stage := .connecting, tries := true, mounted := false,
              credentials := (ascii "home", ascii "secret") }) ∧
      AtEveryStep
        (ShowsCalls (blankDevice givenStorage)
          { stage := .resets, tries := true, mounted := false,
            credentials := ([], []) })
        givenHistory :=
  device_refines_provision (blankDevice givenStorage) _ givenHistory
    (blankDevice_refines chooses_givenStorage) givenHistory_wellFormed

/-! ## A connection forgets the credentials -/

/-- The event is a datagram whose configuration the driver accepts. -/
def DeviceEvent.Gives : DeviceEvent → Prop
  | .datagram _ answers => answers.accepts = true
  | _ => False

/-- In front of the wait there is nothing in the configuration that it is to
hand over. -/
def HandsBlank (device : Device) : Prop :=
  device.stage = .connecting → device.wifiConfig2 = StaConfig.zero

/-- What one event does to the configuration of the driver: only such a
datagram brings a new one, and a boot connects with the one that is kept. -/
structure KeepsStored (device next : Device) (event : DeviceEvent)
    (calls : List DeviceCall) : Prop where
  handsBlank : HandsBlank next
  stored : ¬ event.Gives →
    next.stored = device.stored ∨ next.stored = StaConfig.zero
  connects : ∀ config, .connect config ∈ calls → config = device.stored

section Stored

variable {device next : Device} {calls : List DeviceCall}

theorem KeepsStored.of_no_calls {event : DeviceEvent}
    (handsBlank : HandsBlank next) (same : next.stored = device.stored) :
    KeepsStored device next event [] :=
  ⟨handsBlank, fun _ => Or.inl same, fun _ connects => by cases connects⟩

/-- A boot ends in one of the two modes, and has cleared `wifi_config2`. -/
theorem appMain_cases {answers : BootAnswers}
    (booted : device.appMain answers = .ok (next, calls)) :
    ∃ storage,
      let start := { device with
        storage, rxBuffer := answers.rxBuffer, wifiConfig2 := StaConfig.zero }
      (next, calls) = start.wifiInitSoftap answers.starts ∨
        (next, calls) = start.wifiInitSta answers.starts := by
  rw [Device.appMain] at booted
  obtain ⟨⟨storage, reply⟩, _, rest⟩ := bind_eq_ok_iff.mp booted
  refine ⟨storage, ?_⟩
  dsimp only at rest
  cases isRow : reply.row with
  | none =>
      rw [isRow] at rest
      injection rest with ended
      exact Or.inl ended.symm
  | some row =>
      rw [isRow] at rest
      obtain ⟨line, _, rest⟩ := bind_eq_ok_iff.mp rest
      split at rest
      · injection rest with ended
        exact Or.inl ended.symm
      · injection rest with ended
        exact Or.inr ended.symm

theorem keepsStored_of_boot {answers : BootAnswers}
    (booted : device.appMain answers = .ok (next, calls)) :
    KeepsStored device next (.boot answers) calls := by
  obtain ⟨storage, isSoftap | isSta⟩ := appMain_cases booted
  · rw [Device.wifiInitSoftap] at isSoftap
    split at isSoftap <;> cases isSoftap <;>
      exact ⟨fun _ => rfl, fun _ => Or.inl rfl, by simp⟩
  · rw [Device.wifiInitSta] at isSta
    split at isSta <;> cases isSta <;>
      exact ⟨fun _ => rfl, fun _ => Or.inl rfl, by simp⟩

theorem keepsStored_of_waitReturns (blank : HandsBlank device)
    (stage : device.stage = .connecting) {bits : EventBits} {accepts : Bool}
    {write : StorageAnswers}
    (returned : device.waitReturns bits accepts write = .ok (next, calls)) :
    KeepsStored device next (.waitReturns bits accepts write) calls := by
  rw [Device.waitReturns] at returned
  split at returned
  · split at returned <;> cases returned
    · exact ⟨Stage.noConfusion, fun _ => Or.inr (blank stage), by simp⟩
    · exact ⟨Stage.noConfusion, fun _ => Or.inl rfl, by simp⟩
  · split at returned
    · obtain ⟨⟨storage, reply⟩, _, rest⟩ := bind_eq_ok_iff.mp returned
      cases rest
      exact ⟨Stage.noConfusion, fun _ => Or.inl rfl, by simp⟩
    · cases returned
      exact ⟨Stage.noConfusion, fun _ => Or.inl rfl, by simp⟩

theorem keepsStored_of_receive {mode : WifiMode}
    (stage : device.stage = .receiving mode) {bytes : List UInt8}
    {answers : DatagramAnswers}
    (received : device.receive bytes answers = .ok (next, calls)) :
    KeepsStored device next (.datagram bytes answers) calls := by
  simp only [Device.receive, bind_eq_ok_iff] at received
  obtain ⟨stored, _, terminated, _, copied, _, rest⟩ := received
  by_cases accepted : answers.accepts = true
  · rw [if_neg (not_not_intro accepted)] at rest
    have gives : DeviceEvent.Gives (.datagram bytes answers) := accepted
    simp only [bind_eq_ok_iff] at rest
    obtain ⟨written, _, echo, _, rest⟩ := rest
    split at rest
    · cases rest
      exact ⟨Stage.noConfusion, fun given => absurd gives given, by simp⟩
    · cases rest
      refine ⟨?_, fun given => absurd gives given, by simp⟩
      rw [HandsBlank, Device.reopenSocket]
      split
      · intro isConnecting
        cases stage.symm.trans isConnecting
      · exact Stage.noConfusion
  · rw [if_pos accepted] at rest
    cases rest
    exact ⟨Stage.noConfusion, fun _ => Or.inl rfl, by simp⟩

theorem keepsStored_of_handle (blank : HandsBlank device)
    {event : DeviceEvent} (handled : device.handle event = .ok (next, calls)) :
    KeepsStored device next event calls := by
  cases awaited : event.isAwaited device.stage with
  | false =>
      rw [Device.handle_of_idle awaited] at handled
      cases handled
      exact .of_no_calls blank rfl
  | true =>
      rcases isAwaited_cases awaited with
        isReset | ⟨answers, isBoot, stage⟩ |
        ⟨bits, accepts, write, isWait, stage⟩ |
        ⟨reopens, mode, isError, stage⟩ |
        ⟨bytes, answers, mode, isDatagram, stage⟩
      · subst isReset
        cases handled
        exact .of_no_calls Stage.noConfusion rfl
      · subst isBoot
        simp only [Device.handle, stage] at handled
        exact keepsStored_of_boot handled
      · subst isWait
        simp only [Device.handle, stage] at handled
        exact keepsStored_of_waitReturns blank stage handled
      · subst isError
        simp only [Device.handle, stage] at handled
        cases handled
        rw [Device.reopenSocket]
        split
        · exact .of_no_calls blank rfl
        · exact .of_no_calls Stage.noConfusion rfl
      · subst isDatagram
        simp only [Device.handle, stage] at handled
        exact keepsStored_of_receive stage handled

theorem handsBlank_of_after {history : List DeviceEvent}
    (blank : HandsBlank device)
    (reached : deviceAfter device history = .ok next) : HandsBlank next := by
  refine after_induction (motive := fun _ reached => HandsBlank reached)
    blank ?_ reached
  intro earlier event middle next calls _ keeps handled
  exact (keepsStored_of_handle keeps handled).handsBlank

/-- Without such a datagram, a driver that keeps nothing keeps nothing. -/
theorem stored_of_after {history : List DeviceEvent}
    (blank : HandsBlank device) (isZero : device.stored = StaConfig.zero)
    (reached : deviceAfter device history = .ok next)
    (givesNothing : ∀ event, event ∈ history → ¬ event.Gives) :
    next.stored = StaConfig.zero := by
  have carried : HandsBlank next ∧
      ((∀ event, event ∈ history → ¬ event.Gives) →
        next.stored = StaConfig.zero) := by
    refine after_induction
      (motive := fun front reached => HandsBlank reached ∧
        ((∀ event, event ∈ front → ¬ event.Gives) →
          reached.stored = StaConfig.zero))
      ⟨blank, fun _ => isZero⟩ ?_ reached
    rintro earlier event middle next calls _ ⟨keepsBlank, keeps⟩ handled
    have step := keepsStored_of_handle keepsBlank handled
    refine ⟨step.handsBlank, ?_⟩
    intro noneGives
    rw [List.forall_mem_append, List.forall_mem_singleton] at noneGives
    rcases step.stored noneGives.2 with same | isNow
    · exact same.trans (keeps noneGives.1)
    · exact isNow
  exact carried.2 givesNothing

end Stored

/-- Every connection that the event starts is with a blank name and a blank
password. -/
def ConnectsBlank (device : Device) (front : List DeviceEvent)
    (event : DeviceEvent) : Prop :=
  ∀ middle next calls config,
    deviceAfter device front = .ok middle →
      middle.handle event = .ok (next, calls) →
        .connect config ∈ calls → configPair config = ([], [])

/-- The device has reached the wait of `wifi_init_sta`. -/
def Connects (device : Device) (front : List DeviceEvent) : Prop :=
  ∃ middle,
    deviceAfter device front = .ok middle ∧ middle.stage = .connecting

/-- A connection that is made and whose configuration the driver accepts is
the last one with these credentials: until the driver accepts a datagram
again, every boot that connects does so with a blank name, whatever datagrams
arrive and however the storage calls go. -/
theorem connection_forgets_credentials (device : Device)
    (front behind : List DeviceEvent) (bits : EventBits)
    (write : StorageAnswers) (switchedOn : device.stage = .resets)
    (waits : Connects device front) (connected : bits.connected = true)
    (givesNothing : ∀ event, event ∈ behind → ¬ event.Gives) :
    AtEveryStep
      (fun later =>
        ConnectsBlank device
          (front ++ .waitReturns bits true write :: later)) behind := by
  intro later event rest shape middle next calls config reached handled
    connects
  obtain ⟨waiting, reachedWait, isConnecting⟩ := waits
  have startsBlank : HandsBlank device := by
    intro isConnecting
    cases switchedOn.symm.trans isConnecting
  have blank := handsBlank_of_after startsBlank reachedWait
  -- the wait hands the blank configuration to the driver
  rw [deviceAfter, List.append_cons, after_append_eq_ok_iff] at reached
  obtain ⟨accepted, reachedAccepted, goesOn⟩ := reached
  obtain ⟨same, output, reachedSame, isAccepted⟩ :=
    after_concat_eq_ok_iff.mp reachedAccepted
  cases reachedWait.symm.trans reachedSame
  simp only [Device.handle, isConnecting, Device.waitReturns,
    if_pos connected, if_true] at isAccepted
  injection isAccepted with isAccepted
  injection isAccepted with isAccepted _
  have isZero : accepted.stored = StaConfig.zero := by
    rw [← isAccepted]
    exact blank isConnecting
  have acceptedBlank : HandsBlank accepted := by
    rw [← isAccepted]
    exact Stage.noConfusion
  rw [shape, List.forall_mem_append] at givesNothing
  have stored : middle.stored = StaConfig.zero :=
    stored_of_after acceptedBlank isZero goesOn givesNothing.1
  have keepsBlank : HandsBlank middle :=
    handsBlank_of_after acceptedBlank goesOn
  rw [(keepsStored_of_handle keepsBlank handled).connects config connects,
    stored]
  exact configPair_zero

/-- A datagram with no separator in it. -/
def noCredentials : DeviceEvent :=
  .datagram (ascii "abc") { lostEcho with accepts := false }

/-- Behind a power cycle, the credentials of the datagram are gone. -/
theorem connection_forgets_credentials_powerCycle :
    AtEveryStep
      (fun later =>
        ConnectsBlank (blankDevice givenStorage)
          (givenHistory ++ connectionMade :: later))
      [.reset, smoothBoot, connectionFailed, smoothBoot, noCredentials] := by
  obtain ⟨waiting, reached, waits⟩ :=
    deviceAfter_refines (blankDevice_refines chooses_givenStorage)
      givenHistory_wellFormed
  refine connection_forgets_credentials (blankDevice givenStorage)
    givenHistory
    [.reset, smoothBoot, connectionFailed, smoothBoot, noCredentials]
    { connected := true, failed := false }
    { mountSucceeds := true, fopenSucceeds := true } rfl
    ⟨waiting, reached, waits.stage⟩ rfl ?_
  simp only [List.forall_mem_cons]
  exact ⟨id, id, id, id, Bool.false_ne_true, List.forall_mem_nil _⟩

end Esp32Source.UdpServerOld
