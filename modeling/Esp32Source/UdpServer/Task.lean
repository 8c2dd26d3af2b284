import Esp32Source.Memory.Strtok
import Esp32Source.UdpServer.Storage
import Esp32Source.Wifi.Config

/-!
# The receive loop of the UDP server

`udp_server_task` takes a datagram `S;P`, copies the name and the password to
the global `wifi_config2`, echoes the datagram and hands the configuration to
the Wi-Fi driver before it restarts.  When the echo cannot be sent the task
opens a new socket and receives on, with `wifi_config2` as it was left.

The name is copied without its NUL.  What the name field then holds is the
last name laid over all the earlier ones, which is the invariant that the
results of this file carry through a run.
-/

namespace Esp32Source.UdpServer

open Memory Machine Wifi

inductive Phase where
  | receiving
  | deleted
  | aborted
  | restarted
  deriving DecidableEq, Repr

/-- The two builds of the receive call: `recvfrom` with one byte less than
the buffer holds, and `recvmsg` with all of it. -/
inductive Receiver where
  | recvfrom
  | recvmsg
  deriving DecidableEq, Repr

/-- The bytes of a datagram that the call stores; the rest is lost. -/
def Receiver.takes (receiver : Receiver) (datagram : List UInt8) :
    List UInt8 :=
  match receiver with
  | .recvfrom => datagram.take 127
  | .recvmsg => datagram.take 128

/-- The task with a socket open. -/
structure Task where
  phase : Phase
  rxBuffer : Buffer 128
  wifiConfig2 : StaConfig
  storage : Storage

/-- The results of the calls that handling one datagram makes; `reopens` is
the result of the `socket` call that follows a failed `sendto`. -/
structure TaskAnswers where
  storage : StorageAnswers
  sends : Bool
  reopens : Bool
  stops : Bool
  setsMode : Bool
  setsConfig : Bool

inductive TaskEvent where
  | recvError (reopens : Bool)
  | datagram (bytes : List UInt8) (answers : TaskAnswers)

inductive TaskCall where
  | sendto (bytes : List UInt8)
  | wifiStop
  | wifiSetMode
  | wifiSetConfig (config : StaConfig)
  | restart
  deriving DecidableEq, Repr

def wifiCredential : List UInt8 := ascii "/spiflash/wifiInfo.txt"

/-- The byte `;`. -/
def separator : UInt8 := 59

/-- A pointer that is dereferenced. -/
def dereference (pointer : Option Nat) : Except Fault Nat :=
  match pointer with
  | some position => .ok position
  | none => .error .nullPointer

/-- The two `strtok` and the two `memcpy` calls. -/
def copyCredentials (rxBuffer : Buffer 128) (config : StaConfig) :
    Except Fault (Buffer 128 × StaConfig) := do
  let ssidx ← strtok [separator] rxBuffer 0
  let pwdx ← strtok [separator] ssidx.buffer ssidx.saved
  let ssidAt ← dereference ssidx.token
  let ssidLength ← strlen pwdx.buffer ssidAt
  let ssid ← pwdx.buffer.load ssidAt ssidLength
  let withSsid ← config.lead.store ssidOffset ssid
  let pwdAt ← dereference pwdx.token
  let password ← pwdx.buffer.load pwdAt 64
  let lead ← withSsid.store passwordOffset password
  return (pwdx.buffer, { config with lead })

/-- The calls that end the run after an echo.  `ESP_ERROR_CHECK` aborts when
its call fails. -/
def reconfigure (config : StaConfig) (answers : TaskAnswers) :
    Phase × List TaskCall :=
  if ¬ answers.stops then (.aborted, [.wifiStop])
  else if ¬ answers.setsMode then (.aborted, [.wifiStop, .wifiSetMode])
  else if ¬ answers.setsConfig then
    (.aborted, [.wifiStop, .wifiSetMode, .wifiSetConfig config])
  else
    (.restarted, [.wifiStop, .wifiSetMode, .wifiSetConfig config, .restart])

/-- The inner loop was left: the socket is closed and opened again, and a
task that gets no socket deletes itself. -/
def Task.reopenSocket (task : Task) (reopens : Bool) : Task :=
  if reopens then task else { task with phase := .deleted }

/-- One round of the receive loop. -/
def Task.receive (task : Task) :
    TaskEvent → Except Fault (Task × List TaskCall)
  | .recvError reopens => .ok (task.reopenSocket reopens, [])
  | .datagram bytes answers => do
      let received ← task.rxBuffer.store 0 bytes
      let terminated ← received.store bytes.length [0]
      let (storage, _) ← wearLevellingStorage task.storage wifiCredential
        (ascii "what is") answers.storage
      let (rxBuffer, wifiConfig2) ←
        copyCredentials terminated task.wifiConfig2
      let echo ← rxBuffer.load 0 bytes.length
      let task := { task with rxBuffer, wifiConfig2, storage }
      if answers.sends then
        let (phase, calls) := reconfigure wifiConfig2 answers
        return ({ task with phase }, .sendto echo :: calls)
      else
        return (task.reopenSocket answers.reopens, [.sendto echo])

/-- A task that has ended receives nothing. -/
def udpServerTask (task : Task) (event : TaskEvent) :
    Except Fault (Task × List TaskCall) :=
  if task.phase = .receiving then task.receive event else .ok (task, [])

/-- The task at its first `recvfrom`: the bytes of `rx_buffer` are
arbitrary, `wifi_config2` is zero. -/
def Task.start (rxBuffer : Buffer 128) (storage : Storage) : Task where
  phase := .receiving
  rxBuffer
  wifiConfig2 := StaConfig.zero
  storage

def taskAfter (rxBuffer : Buffer 128) (storage : Storage)
    (history : List TaskEvent) : Except Fault Task :=
  after udpServerTask (Task.start rxBuffer storage) history

/-! ## Datagrams -/

/-- The name in a datagram: the bytes in front of the first separator. -/
def datagramSsid (bytes : List UInt8) : List UInt8 :=
  bytes.takeWhile (· ≠ separator)

/-- The password: the bytes between the first separator and the next. -/
def datagramPasswd (bytes : List UInt8) : List UInt8 :=
  ((bytes.dropWhile (· ≠ separator)).drop 1).takeWhile (· ≠ separator)

/-- The datagram is `S;P` or `S;P;` with a name of 1 to 32 and a password of 1
to 63 bytes, none of them NUL. -/
structure Credentials (bytes : List UInt8) : Prop where
  shape :
    bytes = datagramSsid bytes ++ separator :: datagramPasswd bytes ∨
      bytes = datagramSsid bytes ++
        separator :: (datagramPasswd bytes ++ [separator])
  ssidNonempty : 1 ≤ (datagramSsid bytes).length
  ssidShort : (datagramSsid bytes).length ≤ 32
  ssidFree : NulFree (datagramSsid bytes)
  passwdNonempty : 1 ≤ (datagramPasswd bytes).length
  passwdShort : (datagramPasswd bytes).length ≤ 63
  passwdFree : NulFree (datagramPasswd bytes)

def TaskEvent.WellFormed : TaskEvent → Prop
  | .recvError _ => True
  | .datagram bytes _ => Credentials bytes

theorem ne_separator_of_mem_datagramSsid {bytes : List UInt8}
    {byte : UInt8} (member : byte ∈ datagramSsid bytes) :
    byte ≠ separator := by
  simpa using List.mem_takeWhile_imp member

theorem ne_separator_of_mem_datagramPasswd {bytes : List UInt8}
    {byte : UInt8} (member : byte ∈ datagramPasswd bytes) :
    byte ≠ separator := by
  simpa using List.mem_takeWhile_imp member

/-- The first of the separators splits the bytes. -/
theorem split_at_separator {bytes : List UInt8}
    (separated : separator ∈ bytes) :
    ∃ tail,
      bytes = datagramSsid bytes ++ separator :: tail ∧
        datagramPasswd bytes = tail.takeWhile (· ≠ separator) := by
  induction bytes with
  | nil =>
      cases separated
  | cons byte rest inductionHypothesis =>
      by_cases isSeparator : byte = separator
      · refine ⟨rest, ?_, ?_⟩
        · rw [isSeparator, datagramSsid, List.takeWhile_cons_of_neg (by simp),
            List.nil_append]
        · rw [isSeparator, datagramPasswd,
            List.dropWhile_cons_of_neg (by simp), List.drop_one,
            List.tail_cons]
      · have inRest : separator ∈ rest :=
          (List.mem_cons.mp separated).resolve_left (Ne.symm isSeparator)
        obtain ⟨tail, shape, password⟩ := inductionHypothesis inRest
        refine ⟨tail, ?_, ?_⟩
        · rw [datagramSsid,
            List.takeWhile_cons_of_pos (by simpa using isSeparator),
            List.cons_append]
          exact congrArg (byte :: ·) shape
        · rw [datagramPasswd,
            List.dropWhile_cons_of_pos (by simpa using isSeparator)]
          exact password

/-- Behind the name of a terminated text with a separator stands its password,
which the next separator or the NUL ends. -/
theorem terminated_of_separated {bytes : List UInt8}
    (separated : separator ∈ bytes) (rest : List UInt8) :
    ∃ stop behind,
      (stop = 0 ∨ stop ∈ [separator]) ∧
        bytes ++ 0 :: rest =
          datagramSsid bytes ++
            separator :: (datagramPasswd bytes ++ stop :: behind) := by
  obtain ⟨tail, shape, password⟩ := split_at_separator separated
  rw [password]
  by_cases again : separator ∈ tail
  · obtain ⟨later, tailShape, _⟩ := split_at_separator again
    refine ⟨separator, later ++ 0 :: rest, Or.inr (by simp), ?_⟩
    conv_lhs => rw [shape, tailShape]
    simp [datagramSsid]
  · have whole : tail.takeWhile (· ≠ separator) = tail := by
      rw [List.takeWhile_eq_self_iff]
      intro byte member
      have other : byte ≠ separator := fun same => again (same ▸ member)
      simpa using other
    refine ⟨0, rest, Or.inl rfl, ?_⟩
    rw [whole]
    conv_lhs => rw [shape]
    simp

/-- With the NUL that the task stores behind it, the password of a datagram is
ended by that NUL or by a separator. -/
theorem Credentials.terminated {bytes : List UInt8}
    (credentials : Credentials bytes) (rest : List UInt8) :
    ∃ stop behind,
      (stop = 0 ∨ stop ∈ [separator]) ∧
        bytes ++ 0 :: rest =
          datagramSsid bytes ++
            separator :: (datagramPasswd bytes ++ stop :: behind) := by
  rcases credentials.shape with shape | shape
  · refine ⟨0, rest, Or.inl rfl, ?_⟩
    conv_lhs => rw [shape]
    simp
  · refine ⟨separator, 0 :: rest, Or.inr (by simp), ?_⟩
    conv_lhs => rw [shape]
    simp

theorem Credentials.length_le {bytes : List UInt8}
    (credentials : Credentials bytes) : bytes.length ≤ 97 := by
  have ssidShort := credentials.ssidShort
  have passwdShort := credentials.passwdShort
  rcases credentials.shape with shape | shape
  all_goals
    have total := congrArg List.length shape
    simp only [List.length_append, List.length_cons, List.length_nil]
      at total
    omega

/-! ## One datagram -/

/-- The strings that the two calls of `strtok` cut out of the buffer. -/
theorem strtok_credentials {rxBuffer : Buffer 128}
    {ssid passwd behind : List UInt8} {stop : UInt8}
    (shape : rxBuffer.cells =
      ssid ++ separator :: (passwd ++ stop :: behind))
    (ssidNonempty : ssid ≠ []) (passwdNonempty : passwd ≠ [])
    (ssidFree : ∀ byte, byte ∈ ssid → byte ≠ 0 ∧ byte ∉ [separator])
    (passwdFree : ∀ byte, byte ∈ passwd → byte ≠ 0 ∧ byte ∉ [separator])
    (ends : stop = 0 ∨ stop ∈ [separator]) :
    ∃ ssidx pwdx : Strtok 128,
      strtok [separator] rxBuffer 0 = .ok ssidx ∧
        strtok [separator] ssidx.buffer ssidx.saved = .ok pwdx ∧
        ssidx.token = some 0 ∧
        pwdx.token = some (ssid.length + 1) ∧
        pwdx.buffer.cells = ssid ++ 0 :: (passwd ++ 0 :: behind) := by
  have fromStart :
      rxBuffer.cells =
        [] ++ (ssid ++ separator :: (passwd ++ stop :: behind)) :=
    shape
  obtain ⟨cut, saved, firstCall, cutCells, goesOn⟩ :=
    strtok_token fromStart ssidNonempty ssidFree
      (Or.inr List.mem_cons_self)
  have savedAt : saved = ssid.length + 1 := by
    rw [goesOn, List.length_nil, Nat.zero_add, if_neg (by decide)]
  have frontLength : (ssid ++ [0]).length = saved := by
    rw [savedAt, List.length_append, List.length_singleton]
  have cutShape :
      cut.cells = (ssid ++ [0]) ++ (passwd ++ stop :: behind) := by
    rw [cutCells, List.nil_append, List.append_assoc,
      List.singleton_append]
  obtain ⟨final, finalSaved, secondCall, finalCells, _⟩ :=
    strtok_token cutShape passwdNonempty passwdFree ends
  rw [frontLength] at secondCall
  refine ⟨_, _, firstCall, secondCall, rfl, ?_, ?_⟩
  · rw [savedAt]
  · rw [finalCells, List.append_assoc, List.singleton_append]

/-- The name is laid over the bytes of the name field; the password field
reads as the password. -/
theorem copyCredentials_copies {rxBuffer : Buffer 128} (config : StaConfig)
    {ssid passwd behind : List UInt8} {stop : UInt8}
    (shape : rxBuffer.cells =
      ssid ++ separator :: (passwd ++ stop :: behind))
    (ssidNonempty : ssid ≠ []) (passwdNonempty : passwd ≠ [])
    (ssidFree : ∀ byte, byte ∈ ssid → byte ≠ 0 ∧ byte ∉ [separator])
    (passwdFree : ∀ byte, byte ∈ passwd → byte ≠ 0 ∧ byte ∉ [separator])
    (ends : stop = 0 ∨ stop ∈ [separator])
    (ssidShort : ssid.length ≤ 32) (passwdShort : passwd.length ≤ 63) :
    ∃ tokens lead,
      copyCredentials rxBuffer config =
          .ok (tokens, { config with lead }) ∧
        lead.window ssidOffset 32 =
          overlay ssid (config.lead.window ssidOffset 32) ∧
        passwordText lead = passwd := by
  obtain ⟨ssidx, pwdx, firstCall, secondCall, ssidToken, passwdToken,
    cells⟩ :=
    strtok_credentials shape ssidNonempty passwdNonempty ssidFree passwdFree
      ends
  have measured : strlen pwdx.buffer 0 = .ok ssid.length :=
    strlen_of_terminated (by rw [List.drop_zero, cells])
      fun byte member => (ssidFree byte member).1
  have ssidLoaded : pwdx.buffer.load 0 ssid.length = .ok ssid := by
    rw [Buffer.load_of_fits _ _ _ (by omega), Buffer.window, Memory.window,
      List.drop_zero, cells, List.take_left]
  obtain ⟨withSsid, ssidStored, _⟩ :=
    config.lead.store_of_fits ssidOffset ssid (by
      rw [ssidOffset]
      omega)
  have passwdLoaded :=
    pwdx.buffer.load_of_fits (ssid.length + 1) 64 (by omega)
  obtain ⟨lead, passwdStored, _⟩ :=
    withSsid.store_of_fits passwordOffset
      (pwdx.buffer.window (ssid.length + 1) 64) (by
        rw [pwdx.buffer.length_window (by omega), passwordOffset]
        omega)
  refine ⟨pwdx.buffer, lead, ?_, ?_, ?_⟩
  · simp only [copyCredentials, firstCall, secondCall, ssidToken,
      passwdToken, dereference, measured, ssidLoaded, ssidStored,
      passwdLoaded, passwdStored, bind, Except.bind]
    rfl
  · rw [Buffer.window_store_disjoint passwdStored (Or.inl (by decide)),
      Buffer.window_store_inside ssidStored (by decide) (Nat.le_refl _)
        (by omega), Nat.sub_self, patch_zero]
  · have stored :
        lead.window passwordOffset 64 =
          pwdx.buffer.window (ssid.length + 1) 64 := by
      have read := Buffer.window_store_self passwdStored
      rw [pwdx.buffer.length_window (by omega)] at read
      exact read
    have fromPassword :
        pwdx.buffer.cells.drop (ssid.length + 1) =
          passwd ++ 0 :: behind := by
      rw [cells, List.drop_append, List.drop_of_length_le (by omega)]
      simp
    rw [passwordText, stored, Buffer.window, Memory.window, fromPassword,
      List.take_append, List.take_of_length_le (by omega)]
    have room : 64 - passwd.length = (63 - passwd.length) + 1 := by
      omega
    rw [room, List.take_succ_cons, cText_terminated
      fun byte member => (passwdFree byte member).1]

end Esp32Source.UdpServer
