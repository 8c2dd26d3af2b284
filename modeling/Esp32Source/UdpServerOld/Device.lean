import Esp32Source.UdpServerOriginal.Restart

/-!
# The device of the old server

In `udp_server_old.c` the credentials live in the Wi-Fi driver, which keeps
its station configuration in flash.  The file says only whether a boot tries
to connect.  A datagram is handed to the driver at once; `wifi_init_sta`
connects with what the driver has, and hands it `wifi_config2` when it is
connected.

The functions of the storage and `event_handler` are those of the later
programs, and the line that `wearLevellingStorageRead` returns is taken by
value as there.  A call under `ESP_ERROR_CHECK` that fails resets the device.
The set-up of the UART and of the sockets is left out.
-/

namespace Esp32Source.UdpServerOld

open Memory Machine UdpServer Wifi
open UdpServerOriginal (wifiIsWrong strcmpIsZero reset)

/-! ## The program -/

inductive WifiMode where
  | ap
  | sta
  deriving DecidableEq, Repr

/-- What the device waits for: a boot, the bits of `wifi_init_sta`, or a
datagram. -/
inductive Stage where
  | resets
  | connecting
  | receiving (mode : WifiMode)
  | deleted
  deriving DecidableEq, Repr

/-- The device, with the configuration that the driver keeps. -/
structure Device where
  stage : Stage
  rxBuffer : Buffer 128
  wifiConfig2 : StaConfig
  storage : Storage
  stored : StaConfig

/-- What the environment decides about one boot: how the file is read, the
bytes of the regions that are not initialised, and whether the driver
starts. -/
structure BootAnswers where
  read : StorageAnswers
  memory : Buffer 192
  rxBuffer : Buffer 128
  starts : Bool

/-- The results of the calls for one datagram; `accepts` is that of the
first `esp_wifi_set_config`. -/
structure DatagramAnswers extends TaskAnswers where
  accepts : Bool

inductive DeviceEvent where
  | reset
  | boot (answers : BootAnswers)
  | waitReturns (bits : EventBits) (accepts : Bool) (write : StorageAnswers)
  | recvError (reopens : Bool)
  | datagram (bytes : List UInt8) (answers : DatagramAnswers)

inductive DeviceCall where
  | softap
  | connect (config : StaConfig)
  | task (call : TaskCall)
  deriving DecidableEq, Repr

/-- The two `strtok` and the two `memcpy` calls, which copy 32 and 64 bytes
whatever the lengths of the strings are. -/
def copyCredentials (rxBuffer : Buffer 128) (config : StaConfig) :
    Except Fault (Buffer 128 × StaConfig) := do
  let ssidx ← strtok [separator] rxBuffer 0
  let pwdx ← strtok [separator] ssidx.buffer ssidx.saved
  let ssidAt ← dereference ssidx.token
  let ssid ← pwdx.buffer.load ssidAt 32
  let withSsid ← config.lead.store ssidOffset ssid
  let pwdAt ← dereference pwdx.token
  let password ← pwdx.buffer.load pwdAt 64
  let lead ← withSsid.store passwordOffset password
  return (pwdx.buffer, { config with lead })

/-- The inner loop was left. -/
def Device.reopenSocket (device : Device) (reopens : Bool) : Device :=
  if reopens then device else { device with stage := .deleted }

/-- One datagram in `udp_server_task`: `bytes` is what `recvfrom` has
stored. -/
def Device.receive (device : Device) (bytes : List UInt8)
    (answers : DatagramAnswers) :
    Except Fault (Device × List DeviceCall) := do
  let received ← device.rxBuffer.store 0 bytes
  let terminated ← received.store bytes.length [0]
  let (rxBuffer, wifiConfig2) ←
    copyCredentials terminated device.wifiConfig2
  let device := { device with rxBuffer, wifiConfig2 }
  let configured := DeviceCall.task (.wifiSetConfig wifiConfig2)
  if ¬ answers.accepts then
    return ({ device with stage := .resets }, [configured])
  else do
    let (storage, _) ← wearLevellingStorage device.storage wifiCredential
      (ascii "test wifi credentials") answers.storage
    let echo ← rxBuffer.load 0 bytes.length
    let device := { device with storage, stored := wifiConfig2 }
    let sent := DeviceCall.task (.sendto echo)
    if answers.sends then
      -- the second call for the same configuration leaves what is stored
      let calls := (reconfigure wifiConfig2 answers.toTaskAnswers).2
      return ({ device with stage := .resets },
        configured :: sent :: calls.map .task)
    else
      return (device.reopenSocket answers.reopens, [configured, sent])

/-- `wifi_init_sta` behind its wait. -/
def Device.waitReturns (device : Device) (bits : EventBits)
    (accepts : Bool) (write : StorageAnswers) :
    Except Fault (Device × List DeviceCall) :=
  if bits.connected then
    let configured := DeviceCall.task (.wifiSetConfig device.wifiConfig2)
    if accepts then
      .ok ({ device with
              stage := .receiving .sta, stored := device.wifiConfig2 },
        [configured])
    else .ok ({ device with stage := .resets }, [configured])
  else if bits.failed then do
    let (storage, _) ←
      wearLevellingStorage device.storage wifiCredential wifiIsWrong write
    return ({ device with storage, stage := .resets }, [.task .restart])
  else
    -- the branch logged as an unexpected event
    .ok ({ device with stage := .receiving .sta }, [])

/-- `wifi_init_softap` -/
def Device.wifiInitSoftap (device : Device) (starts : Bool) :
    Device × List DeviceCall :=
  if starts then ({ device with stage := .receiving .ap }, [.softap])
  else (device, [])

/-- `wifi_init_sta` in front of its wait. -/
def Device.wifiInitSta (device : Device) (starts : Bool) :
    Device × List DeviceCall :=
  if starts then
    ({ device with stage := .connecting }, [.connect device.stored])
  else (device, [])

def Device.appMain (device : Device) (answers : BootAnswers) :
    Except Fault (Device × List DeviceCall) := do
  let (storage, reply) ← wearLevellingStorageRead (reset device.storage)
    wifiCredential answers.read
  let device := { device with
    storage, rxBuffer := answers.rxBuffer, wifiConfig2 := StaConfig.zero }
  match reply.row with
  | none => return device.wifiInitSoftap answers.starts
  | some row => do
      let line ← answers.memory.store 0 row
      if strcmpIsZero line wifiIsWrong then
        return device.wifiInitSoftap answers.starts
      else return device.wifiInitSta answers.starts

/-- An event for which the device does not wait changes nothing. -/
def Device.handle (device : Device) (event : DeviceEvent) :
    Except Fault (Device × List DeviceCall) :=
  match event, device.stage with
  | .reset, _ => .ok ({ device with stage := .resets }, [])
  | .boot answers, .resets => device.appMain answers
  | .waitReturns bits accepts write, .connecting =>
      device.waitReturns bits accepts write
  | .recvError reopens, .receiving _ =>
      .ok (device.reopenSocket reopens, [])
  | .datagram bytes answers, .receiving _ => device.receive bytes answers
  | _, _ => .ok (device, [])

def deviceAfter (device : Device) (history : List DeviceEvent) :
    Except Fault Device :=
  after Device.handle device history

/-! ## One datagram -/

/-- Both strings are copied with their terminators, so that nothing of the
former configuration is left in the two fields. -/
theorem copyCredentials_copies {rxBuffer : Buffer 128} (config : StaConfig)
    {ssid passwd behind : List UInt8} {stop : UInt8}
    (shape : rxBuffer.cells =
      ssid ++ separator :: (passwd ++ stop :: behind))
    (ssidNonempty : ssid ≠ []) (passwdNonempty : passwd ≠ [])
    (ssidFree : ∀ byte, byte ∈ ssid → byte ≠ 0 ∧ byte ∉ [separator])
    (passwdFree : ∀ byte, byte ∈ passwd → byte ≠ 0 ∧ byte ∉ [separator])
    (ends : stop = 0 ∨ stop ∈ [separator])
    (ssidShort : ssid.length ≤ 32) (passwdShort : passwd.length ≤ 63) :
    ∃ tokens lead,
      copyCredentials rxBuffer config =
          .ok (tokens, { config with lead }) ∧
        ssidText lead = ssid ∧ passwordText lead = passwd := by
  obtain ⟨ssidx, pwdx, firstCall, secondCall, ssidToken, passwdToken,
    cells⟩ :=
    strtok_credentials shape ssidNonempty passwdNonempty ssidFree passwdFree
      ends
  have ssidInside : 0 + 32 ≤ 128 := by
    decide
  have pwdInside : ssid.length + 1 + 64 ≤ 128 := by
    omega
  have ssidLength := pwdx.buffer.length_window ssidInside
  have pwdLength := pwdx.buffer.length_window pwdInside
  obtain ⟨withSsid, ssidStored, _⟩ :=
    config.lead.store_of_fits ssidOffset (pwdx.buffer.window 0 32) (by
      rw [ssidLength]
      decide)
  obtain ⟨lead, pwdStored, _⟩ :=
    withSsid.store_of_fits passwordOffset
      (pwdx.buffer.window (ssid.length + 1) 64) (by
        rw [pwdLength]
        decide)
  have ssidRead := Buffer.window_store_self ssidStored
  have pwdRead := Buffer.window_store_self pwdStored
  rw [ssidLength] at ssidRead
  rw [pwdLength] at pwdRead
  refine ⟨pwdx.buffer, lead, ?_, ?_, ?_⟩
  · simp only [copyCredentials, firstCall, secondCall, ssidToken,
      passwdToken, dereference, Buffer.load_of_fits _ _ _ ssidInside,
      Buffer.load_of_fits _ _ _ pwdInside, ssidStored, pwdStored, bind,
      Except.bind]
    rfl
  · rw [ssidText, Buffer.window_store_disjoint pwdStored
      (Or.inl (by decide)), ssidRead, Buffer.window, Memory.window,
      List.drop_zero, cells]
    exact cText_take_terminated (fun byte member =>
      (ssidFree byte member).1) _ ssidShort
  · have fromPassword :
        pwdx.buffer.cells.drop (ssid.length + 1) =
          passwd ++ 0 :: behind := by
      rw [cells, List.drop_append, List.drop_of_length_le (by omega)]
      simp
    rw [passwordText, pwdRead, Buffer.window, Memory.window, fromPassword]
    exact cText_take_terminated (fun byte member =>
      (passwdFree byte member).1) _ (Nat.le_succ_of_le passwdShort)

end Esp32Source.UdpServerOld
