import Esp32Source.UdpServer.Lines
import Esp32Source.UdpServer.Provisioning
import Esp32Source.UdpServer.Retry

/-!
# Booting from the credential file

In `udp_server_original.c` the credentials live in a file only.  The receive
loop writes the datagram to it and restarts; `app_main` reads the first line
back, cuts it at the semicolons and hands the two strings to `wifi_init_sta`.
A file that is missing or that holds `wifi is wrong` starts the access point.

The storage functions are those of `udp_server.c`, word for word.  The line
that `wearLevellingStorageRead` returns is taken by value: it stands at the
beginning of a region whose other bytes are arbitrary.  The log and the
`printf` calls are left out.
-/

namespace Esp32Source.UdpServerOriginal

open Memory Machine UdpServer Wifi

/-- The text that stands for missing credentials. -/
def wifiIsWrong : List UInt8 := ascii "wifi is wrong"

/-- `strcmp` with a literal returns zero. -/
def strcmpIsZero {size : Nat} (buffer : Buffer size) (literal : List UInt8) :
    Bool :=
  (literal ++ [0]).isPrefixOf buffer.cells

/-! ## Storing a datagram -/

/-- One datagram of the receive loop: what is echoed, and whether the task
restarts, which it does unless `sendto` fails. -/
def udpServerTask (receiver : Receiver) (rxBuffer : Buffer 128)
    (storage : Storage) (datagram : List UInt8) (answers : StorageAnswers)
    (sends : Bool) : Except Fault (Storage × List UInt8 × Bool) := do
  let bytes := receiver.takes datagram
  let received ← rxBuffer.store 0 bytes
  let terminated ← received.store bytes.length [0]
  let (storage, _) ←
    wearLevellingStorage storage wifiCredential terminated.cells answers
  let echo ← terminated.load 0 bytes.length
  return (storage, echo, sends)

/-! ## `wifi_init_sta` -/

/-- What the environment decides about one boot: how the storage calls go,
the bytes of the region that the line is stored to, and the bits that
`wifi_init_sta` waits for. -/
structure BootAnswers where
  read : StorageAnswers
  memory : Buffer 192
  bits : EventBits
  write : StorageAnswers

/-- The initialiser of `wifi_config`, with `EXAMPLE_ESP_WIFI_SSID` and
`EXAMPLE_ESP_WIFI_PASS`. -/
def initialConfig : StaConfig :=
  { StaConfig.zero with
    lead :=
      ((Buffer.zero 100).storeFront
        (ascii "myssid" ++ List.replicate 26 0 ++ ascii "mypassword")
        (by decide)) }

/-- A call of `wifi_init_sta`: the strings that its arguments point to, and
the configuration that it sets. -/
structure StaCall where
  ssid : List UInt8
  pwd : List UInt8
  config : StaConfig
  deriving DecidableEq, Repr

/-- How a boot ends: in the access point, in the station, or in a restart out
of `app_main` or out of `wifi_init_sta`. -/
inductive BootEnd where
  | softap
  | sta (call : StaCall)
  | staRestarts (call : StaCall)
  | restarts
  deriving DecidableEq, Repr

/-- `wifi_init_sta` up to `esp_wifi_set_config`.  It copies 32 and 64 bytes,
whatever the length of the strings. -/
def staConfig (line : Buffer 192) (SSID PWD : Nat) :
    Except Fault StaConfig := do
  let ssid ← line.load SSID 32
  let password ← line.load PWD 64
  let withSsid ← initialConfig.lead.store ssidOffset ssid
  let lead ← withSsid.store passwordOffset password
  return { initialConfig with lead }

def wifiInitSta (storage : Storage) (line : Buffer 192) (SSID PWD : Nat)
    (answers : BootAnswers) : Except Fault (Storage × BootEnd) := do
  let config ← staConfig line SSID PWD
  let call : StaCall :=
    { ssid := cText (line.cells.drop SSID),
      pwd := cText (line.cells.drop PWD), config }
  if answers.bits.connected then return (storage, .sta call)
  else do
    let (storage, _) ←
      wearLevellingStorage storage wifiCredential wifiIsWrong answers.write
    if answers.bits.failed then return (storage, .staRestarts call)
    -- the branch logged as an unexpected event
    else return (storage, .sta call)

/-! ## `app_main` -/

def appMain (storage : Storage) (answers : BootAnswers) :
    Except Fault (Storage × BootEnd) := do
  let (storage, reply) ←
    wearLevellingStorageRead storage wifiCredential answers.read
  match reply.row with
  | none => return (storage, .softap)
  | some row => do
      let line ← answers.memory.store 0 row
      if strcmpIsZero line wifiIsWrong then return (storage, .softap)
      else do
        let first ← strsep [separator] line (some 0)
        let second ← strsep [separator] first.buffer first.stringp
        match first.token, second.token with
        | some SSID, some PWD =>
            wifiInitSta storage second.buffer SSID PWD answers
        | _, _ => do
            let (storage, _) ← wearLevellingStorage storage wifiCredential
              wifiIsWrong answers.write
            return (storage, .restarts)

/-- What a reset leaves: the files, with nothing mounted. -/
def reset (storage : Storage) : Storage :=
  { storage with mounted := false }

/-- The call of `wifi_init_sta`, if the boot made one. -/
def BootEnd.staCall : BootEnd → Option StaCall
  | .softap => none
  | .sta call => some call
  | .staRestarts call => some call
  | .restarts => none

/-- The boot ends in `esp_restart`. -/
def BootEnd.Restarts : BootEnd → Prop
  | .softap => False
  | .sta _ => False
  | .staRestarts _ => True
  | .restarts => True

instance : DecidablePred BootEnd.Restarts
  | .softap => .isFalse id
  | .sta _ => .isFalse id
  | .staRestarts _ => .isTrue trivial
  | .restarts => .isTrue trivial

/-! ## One call at a time -/

theorem strcmpIsZero_iff {size : Nat} {buffer : Buffer size}
    {text literal rest : List UInt8}
    (shape : buffer.cells = text ++ 0 :: rest)
    (textFree : NulFree text) (literalFree : NulFree literal) :
    strcmpIsZero buffer literal = true ↔ text = literal := by
  rw [strcmpIsZero, List.isPrefixOf_iff_prefix, shape]
  constructor
  · intro isPrefix
    obtain ⟨behind, same⟩ := isPrefix
    have read := congrArg cText same
    rw [List.append_assoc, List.singleton_append,
      cText_terminated literalFree, cText_terminated textFree] at read
    exact read.symm
  · intro same
    rw [same]
    exact ⟨rest, by rw [List.append_assoc, List.singleton_append]⟩

theorem wifiIsWrong_free : NulFree wifiIsWrong := by
  decide

theorem formatOutput_wifiIsWrong :
    formatOutput (cText wifiIsWrong) = .ok wifiIsWrong := by
  rw [cText_of_nulFree wifiIsWrong_free]
  apply formatOutput_of_plain
  decide

/-- The two fields are the 32 and 64 bytes behind the pointers. -/
theorem staConfig_copies (line : Buffer 192) {SSID PWD : Nat}
    (ssidInside : SSID + 32 ≤ 192) (pwdInside : PWD + 64 ≤ 192) :
    ∃ config, staConfig line SSID PWD = .ok config ∧
      config.lead.window ssidOffset 32 = line.window SSID 32 ∧
      config.lead.window passwordOffset 64 = line.window PWD 64 := by
  have ssidLength := line.length_window ssidInside
  have pwdLength := line.length_window pwdInside
  obtain ⟨withSsid, ssidStored, _⟩ :=
    initialConfig.lead.store_of_fits ssidOffset (line.window SSID 32) (by
      rw [ssidLength]
      decide)
  obtain ⟨lead, pwdStored, _⟩ :=
    withSsid.store_of_fits passwordOffset (line.window PWD 64) (by
      rw [pwdLength]
      decide)
  have ssidRead := Buffer.window_store_self ssidStored
  have pwdRead := Buffer.window_store_self pwdStored
  rw [ssidLength] at ssidRead
  rw [pwdLength] at pwdRead
  refine ⟨{ initialConfig with lead }, ?_, ?_, pwdRead⟩
  · rw [staConfig, line.load_of_fits _ _ ssidInside,
      line.load_of_fits _ _ pwdInside]
    dsimp only [bind, Except.bind]
    rw [ssidStored]
    dsimp only
    rw [pwdStored]
    rfl
  · rw [Buffer.window_store_disjoint pwdStored (Or.inl (by decide))]
    exact ssidRead

/-- What a call of `wifi_init_sta` passes on, and what it leaves in the file
when it restarts. -/
structure StartsStation (storage : Storage) (line : Buffer 192)
    (SSID PWD : Nat) (answers : BootAnswers) (call : StaCall) : Prop where
  ssid : call.ssid = cText (line.cells.drop SSID)
  pwd : call.pwd = cText (line.cells.drop PWD)
  ssidField : call.config.lead.window ssidOffset 32 = line.window SSID 32
  pwdField : call.config.lead.window passwordOffset 64 = line.window PWD 64
  ends : ∃ final ended,
    wifiInitSta storage line SSID PWD answers = .ok (final, ended) ∧
      ended.staCall = some call ∧
      (storage.mounted = false → answers.write.Succeed →
        final.mounted = false ∧
          (ended.Restarts →
            final.files wifiCredential = some wifiIsWrong))

theorem wifiInitSta_starts (storage : Storage) (line : Buffer 192)
    {SSID PWD : Nat} (answers : BootAnswers)
    (ssidInside : SSID + 32 ≤ 192) (pwdInside : PWD + 64 ≤ 192) :
    ∃ call, StartsStation storage line SSID PWD answers call := by
  obtain ⟨config, copied, ssidField, pwdField⟩ :=
    staConfig_copies line ssidInside pwdInside
  obtain ⟨⟨written, reply⟩, stored⟩ :=
    wearLevellingStorage_returns storage wifiCredential
      formatOutput_wifiIsWrong answers.write
  have erased : storage.mounted = false → answers.write.Succeed →
      written.mounted = false ∧
        written.files wifiCredential = some wifiIsWrong := by
    intro unmounted succeed
    have writes := wearLevellingStorage_writes unmounted succeed
      wifiCredential formatOutput_wifiIsWrong
    rw [stored] at writes
    injection writes with same
    injection same with isWritten _
    rw [isWritten]
    refine ⟨unmounted, ?_⟩
    dsimp only
    rw [Function.update_self]
  refine ⟨⟨_, _, config⟩, rfl, rfl, ssidField, pwdField, ?_⟩
  rw [wifiInitSta, copied]
  dsimp only [bind, Except.bind]
  cases connected : answers.bits.connected with
  | true =>
      exact ⟨storage, _, rfl, rfl, fun unmounted _ =>
        ⟨unmounted, fun restarts => restarts.elim⟩⟩
  | false =>
      rw [if_neg Bool.false_ne_true, stored]
      dsimp only
      cases failed : answers.bits.failed with
      | true =>
          exact ⟨written, _, rfl, rfl, fun unmounted succeed =>
            ⟨(erased unmounted succeed).1,
              fun _ => (erased unmounted succeed).2⟩⟩
      | false =>
          exact ⟨written, _, rfl, rfl, fun unmounted succeed =>
            ⟨(erased unmounted succeed).1,
              fun restarts => restarts.elim⟩⟩

/-- The region that the row of a text is stored to. -/
theorem row_stored (memory : Buffer 192) {row text behind : List UInt8}
    (size : row.length = 128) (shape : row = text ++ 0 :: behind) :
    ∃ line rest, memory.store 0 row = .ok line ∧
      line.cells = text ++ 0 :: rest := by
  obtain ⟨line, stored, cells⟩ := memory.store_of_fits 0 row (by omega)
  refine ⟨line, behind ++ memory.cells.drop row.length, stored, ?_⟩
  rw [cells, patch_zero, overlay]
  conv_lhs => rw [shape]
  rw [List.append_assoc, List.cons_append, ← shape]

/-- A text with a separator is cut into its name and its password, and
`wifi_init_sta` is called with both. -/
theorem appMain_of_separated {storage : Storage} {answers : BootAnswers}
    {row text behind : List UInt8}
    (read : wearLevellingStorageRead storage wifiCredential answers.read =
      .ok (storage, { mount := .ok, row := some row }))
    (size : row.length = 128) (shape : row = text ++ 0 :: behind)
    (free : NulFree text) (separated : separator ∈ text) :
    ∃ line rest,
      appMain storage answers =
          wifiInitSta storage line 0 ((datagramSsid text).length + 1)
            answers ∧
        line.cells =
          datagramSsid text ++ 0 :: (datagramPasswd text ++ 0 :: rest) := by
  obtain ⟨line, rest, stored, cells⟩ :=
    row_stored answers.memory size shape
  have notErased : strcmpIsZero line wifiIsWrong = false := by
    rw [← Bool.not_eq_true, strcmpIsZero_iff cells free wifiIsWrong_free]
    intro isMarker
    rw [isMarker] at separated
    revert separated
    decide
  obtain ⟨stop, later, ends, cut⟩ := terminated_of_separated separated rest
  have ssidInside : ∀ byte, byte ∈ datagramSsid text →
      byte ≠ 0 ∧ byte ∉ [separator] := by
    intro byte member
    refine ⟨free byte (List.takeWhile_subset _ member), ?_⟩
    simpa using ne_separator_of_mem_datagramSsid member
  have pwdInside : ∀ byte, byte ∈ datagramPasswd text →
      byte ≠ 0 ∧ byte ∉ [separator] := by
    intro byte member
    have inText : byte ∈ text :=
      List.dropWhile_subset _
        (List.mem_of_mem_drop (List.takeWhile_subset _ member))
    refine ⟨free byte inText, ?_⟩
    simpa using ne_separator_of_mem_datagramPasswd member
  have lineShape : line.cells =
      [] ++ (datagramSsid text ++
        separator :: (datagramPasswd text ++ stop :: later)) := by
    rw [cells, cut, List.nil_append]
  obtain ⟨middle, firstCall, middleCells⟩ :=
    strsep_token lineShape ssidInside (Or.inr List.mem_cons_self)
  have middleShape : middle.cells =
      (datagramSsid text ++ [0]) ++
        (datagramPasswd text ++ stop :: later) := by
    rw [middleCells, List.nil_append, List.append_assoc,
      List.singleton_append]
  obtain ⟨final, secondCall, finalCells⟩ :=
    strsep_token middleShape pwdInside ends
  refine ⟨final, later, ?_, ?_⟩
  · rw [List.length_nil, if_neg (by decide), Nat.zero_add] at firstCall
    rw [List.length_append, List.length_singleton] at secondCall
    rw [appMain, read]
    dsimp only [bind, Except.bind]
    rw [stored]
    dsimp only
    rw [notErased, if_neg Bool.false_ne_true, firstCall]
    dsimp only
    rw [secondCall]
  · rw [finalCells, List.append_assoc, List.singleton_append]

end Esp32Source.UdpServerOriginal
