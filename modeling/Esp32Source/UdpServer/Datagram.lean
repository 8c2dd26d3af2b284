import Esp32Source.UdpServer.Provisioning

/-!
# Datagrams of any content

`udp_server_task` treats whatever it receives as credentials.  It looks at
neither the length of the datagram nor the results of `strtok`, and copies the
first token without a bound and 64 bytes from the second one on.

Handling a datagram is safe when both tokens exist, the first has at most 32
bytes, the second starts in the first half of the buffer, and the terminator
still fits; each other shape fails, at a statement of its own.
-/

namespace Esp32Source.UdpServer

open Memory Machine Wifi

/-! ## What is copied -/

/-- The two calls of `strtok` and the source of the first `memcpy`. -/
def ssidSource (rxBuffer : Buffer 128) :
    Except Fault (Strtok 128 × List UInt8) := do
  let ssidx ← strtok [separator] rxBuffer 0
  let pwdx ← strtok [separator] ssidx.buffer ssidx.saved
  let ssidAt ← dereference ssidx.token
  let ssidLength ← strlen pwdx.buffer ssidAt
  let ssid ← pwdx.buffer.load ssidAt ssidLength
  return (pwdx, ssid)

/-- The source of the second `memcpy`. -/
def passwordSource (pwdx : Strtok 128) : Except Fault (List UInt8) := do
  let pwdAt ← dereference pwdx.token
  pwdx.buffer.load pwdAt 64

/-- The sources are what the task copies to the two fields. -/
theorem copyCredentials_eq (rxBuffer : Buffer 128) (config : StaConfig) :
    copyCredentials rxBuffer config = do
      let (pwdx, ssid) ← ssidSource rxBuffer
      let withSsid ← config.lead.store ssidOffset ssid
      let password ← passwordSource pwdx
      let lead ← withSsid.store passwordOffset password
      return (pwdx.buffer, { config with lead }) := by
  rw [copyCredentials, ssidSource]
  simp only [bind_assoc, pure_bind, passwordSource]

/-! ## The tokens of a datagram -/

/-- The first token of the bytes up to their first NUL. -/
def ssidToken (bytes : List UInt8) : List UInt8 :=
  firstToken [separator] (cText bytes)

/-- The text that the first call leaves to the second. -/
def behindSsid (bytes : List UInt8) : List UInt8 :=
  (behindToken [separator] (cText bytes)).tail

def passwordToken (bytes : List UInt8) : List UInt8 :=
  firstToken [separator] (behindSsid bytes)

/-- Where the second token starts. -/
def passwordAt (bytes : List UInt8) : Nat :=
  (tokenGap [separator] (cText bytes)).length +
    (ssidToken bytes).length + 1 +
      (tokenGap [separator] (behindSsid bytes)).length

/-- The two calls of `strtok`, on a buffer of any content. -/
structure Tokens (bytes : List UInt8) (ssidx pwdx : Strtok 128) :
    Prop where
  ssid : ssidx.token =
    if ssidToken bytes = [] then none
    else some (tokenGap [separator] (cText bytes)).length
  password : pwdx.token =
    if passwordToken bytes = [] then none else some (passwordAt bytes)
  cells : ssidToken bytes ≠ [] → ∃ rest,
    pwdx.buffer.cells =
      tokenGap [separator] (cText bytes) ++ (ssidToken bytes ++ 0 :: rest)

theorem strtok_tokens {rxBuffer : Buffer 128} {bytes behind : List UInt8}
    (shape : rxBuffer.cells = bytes ++ 0 :: behind) :
    ∃ ssidx pwdx,
      strtok [separator] rxBuffer 0 = .ok ssidx ∧
        strtok [separator] ssidx.buffer ssidx.saved = .ok pwdx ∧
        Tokens bytes ssidx pwdx := by
  obtain ⟨rest, split⟩ := terminated_eq_cText bytes behind
  have fromStart : rxBuffer.cells = [] ++ (cText bytes ++ 0 :: rest) := by
    rw [shape, split, List.nil_append]
  have noNul : (0 : UInt8) ∉ [separator] := by
    decide
  have free := nulFree_cText bytes
  have freeBehind : NulFree (behindSsid bytes) := by
    intro byte member
    exact nulFree_behindToken free byte (List.mem_of_mem_tail member)
  obtain ⟨ssidx, next, left, firstCall, first⟩ :=
    strtok_tokenizes fromStart noNul free
  obtain ⟨pwdx, _, _, secondCall, second⟩ :=
    strtok_tokenizes first.cells noNul freeBehind
  rw [← first.saved] at secondCall
  refine ⟨ssidx, pwdx, firstCall, secondCall, ?_, ?_, ?_⟩
  · exact first.token
  · have found : pwdx.token =
        if passwordToken bytes = [] then none
        else
          some (next ++ tokenGap [separator] (behindSsid bytes)).length :=
      second.token
    by_cases noPassword : passwordToken bytes = []
    · rw [if_pos noPassword] at found ⊢
      exact found
    · rw [if_neg noPassword] at found ⊢
      -- a second token needs a text behind the first
      have isBehind : behindSsid bytes ≠ [] := by
        intro nothingBehind
        rw [passwordToken, nothingBehind] at noPassword
        exact noPassword rfl
      rw [found, List.length_append, first.goesOn isBehind, passwordAt,
        List.nil_append, List.length_append]
      rfl
  · intro isSsid
    obtain ⟨inFront, more, cells⟩ := first.terminated isSsid
    rw [← first.saved] at inFront
    obtain ⟨final, kept⟩ := strtok_keeps_string cells inFront secondCall
    refine ⟨final, ?_⟩
    rw [kept, List.nil_append, List.append_assoc]
    rfl

/-- The source of the first copy is the first token, if there is one. -/
theorem ssidSource_eq_ok_iff {rxBuffer : Buffer 128}
    {bytes : List UInt8} {ssidx pwdx found : Strtok 128}
    (firstCall : strtok [separator] rxBuffer 0 = .ok ssidx)
    (secondCall :
      strtok [separator] ssidx.buffer ssidx.saved = .ok pwdx)
    (tokens : Tokens bytes ssidx pwdx) {ssid : List UInt8} :
    ssidSource rxBuffer = .ok (found, ssid) ↔
      ssidToken bytes ≠ [] ∧ found = pwdx ∧ ssid = ssidToken bytes := by
  by_cases noSsid : ssidToken bytes = []
  · have noToken := tokens.ssid
    rw [if_pos noSsid] at noToken
    simp [ssidSource, firstCall, secondCall, noToken, dereference, noSsid,
      bind, Except.bind]
  · have isToken := tokens.ssid
    rw [if_neg noSsid] at isToken
    obtain ⟨rest, cells⟩ := tokens.cells noSsid
    have fromToken :
        pwdx.buffer.cells.drop
            (tokenGap [separator] (cText bytes)).length =
          ssidToken bytes ++ 0 :: rest := by
      rw [cells, List.drop_left]
    have free : NulFree (ssidToken bytes) :=
      nulFree_firstToken (nulFree_cText bytes)
    have length := strlen_of_terminated fromToken free
    have inside :
        (tokenGap [separator] (cText bytes)).length +
          (ssidToken bytes).length ≤ 128 := by
      have size := pwdx.buffer.length_cells
      rw [cells] at size
      simp only [List.length_append, List.length_cons] at size
      omega
    have loaded := pwdx.buffer.load_of_fits _ _ inside
    rw [Buffer.window, Memory.window, fromToken, List.take_left] at loaded
    simp only [ssidSource, firstCall, secondCall, isToken, dereference,
      length, loaded, bind, Except.bind]
    constructor
    · intro isOk
      cases isOk
      exact ⟨noSsid, rfl, rfl⟩
    · rintro ⟨_, isFound, isSsid⟩
      rw [isFound, isSsid]
      rfl

/-- The second copy reads inside the buffer exactly when the second token is
there and starts early enough. -/
theorem passwordSource_eq_ok_iff {bytes : List UInt8}
    {ssidx pwdx : Strtok 128} (tokens : Tokens bytes ssidx pwdx)
    {password : List UInt8} :
    passwordSource pwdx = .ok password ↔
      passwordToken bytes ≠ [] ∧ passwordAt bytes ≤ 64 ∧
        password = pwdx.buffer.window (passwordAt bytes) 64 := by
  by_cases noPassword : passwordToken bytes = []
  · have noToken := tokens.password
    rw [if_pos noPassword] at noToken
    simp [passwordSource, noToken, dereference, noPassword, bind,
      Except.bind]
  · have isToken := tokens.password
    rw [if_neg noPassword] at isToken
    simp only [passwordSource, isToken, dereference, bind, Except.bind]
    by_cases early : passwordAt bytes ≤ 64
    · rw [Buffer.load_of_fits _ _ _ (by omega)]
      constructor
      · intro isOk
        cases isOk
        exact ⟨noPassword, early, rfl⟩
      · rintro ⟨_, _, isWindow⟩
        rw [isWindow]
    · rw [Buffer.load, if_neg (by omega)]
      refine iff_of_false ?_ (fun found => early found.2.1)
      intro isOk
      cases isOk

/-! ## Handling a datagram -/

/-- Nothing behind the password and no other member of the record changes. -/
structure OnlyCredentialsChange (earlier later : StaConfig) : Prop where
  behind : later.lead.window behindPassword 4 =
    earlier.lead.window behindPassword 4
  bssidSet : later.bssidSet = earlier.bssidSet
  bssid : later.bssid = earlier.bssid

/-- Handling the datagram goes through: no token is null, the buffer is
accessed inside its bounds, the two copies stay inside their fields, and
nothing else of the record changes. -/
def HandledSafely (receiver : Receiver) (task : Task)
    (datagram : List UInt8) (answers : TaskAnswers) : Prop :=
  ∃ terminated pwdx ssid password next calls,
    (task.rxBuffer.store 0 (receiver.takes datagram) >>= fun received =>
        received.store (receiver.takes datagram).length [0]) =
      .ok terminated ∧
      ssidSource terminated = .ok (pwdx, ssid) ∧ ssid.length ≤ 32 ∧
      passwordSource pwdx = .ok password ∧ password.length ≤ 64 ∧
      task.receive (.datagram (receiver.takes datagram) answers) =
        .ok (next, calls) ∧
      OnlyCredentialsChange task.wifiConfig2 next.wifiConfig2

/-- What the received bytes must be like. -/
structure SafeDatagram (bytes : List UInt8) : Prop where
  leavesTerminator : bytes.length ≤ 127
  hasSsid : ssidToken bytes ≠ []
  ssidShort : (ssidToken bytes).length ≤ 32
  hasPassword : passwordToken bytes ≠ []
  passwordEarly : passwordAt bytes ≤ 64

/-- Receiving the bytes and terminating them is one store. -/
theorem terminate_eq_ok_iff {rxBuffer terminated : Buffer 128}
    {bytes : List UInt8} :
    (rxBuffer.store 0 bytes >>= fun received =>
        received.store bytes.length [0]) = .ok terminated ↔
      bytes.length ≤ 127 ∧
        terminated.cells =
          bytes ++ 0 :: rxBuffer.cells.drop (bytes.length + 1) := by
  have together :
      (rxBuffer.store 0 bytes >>= fun received =>
          received.store bytes.length [0]) = .ok terminated ↔
        rxBuffer.store 0 (bytes ++ [0]) = .ok terminated := by
    rw [bind_eq_ok_iff, Buffer.store_append_eq_ok_iff, Nat.zero_add]
  rw [together, Buffer.store_terminated_eq_ok_iff, Nat.lt_succ_iff]

/-- The two copies into a record. -/
theorem copyCredentials_of_sources {rxBuffer : Buffer 128}
    {pwdx : Strtok 128} {ssid password : List UInt8}
    (config : StaConfig)
    (isSsid : ssidSource rxBuffer = .ok (pwdx, ssid))
    (ssidShort : ssid.length ≤ 32)
    (isPassword : passwordSource pwdx = .ok password)
    (passwordLength : password.length = 64) :
    ∃ lead,
      copyCredentials rxBuffer config =
          .ok (pwdx.buffer, { config with lead }) ∧
        lead.window behindPassword 4 =
          config.lead.window behindPassword 4 := by
  obtain ⟨withSsid, ssidStored, _⟩ :=
    config.lead.store_of_fits ssidOffset ssid (by
      rw [ssidOffset]
      omega)
  obtain ⟨lead, passwordStored, _⟩ :=
    withSsid.store_of_fits passwordOffset password (by
      rw [passwordOffset]
      omega)
  refine ⟨lead, ?_, ?_⟩
  · rw [copyCredentials_eq, isSsid]
    simp only [bind, Except.bind, ssidStored, isPassword, passwordStored]
    rfl
  · rw [Buffer.window_store_disjoint passwordStored
        (Or.inr (by rw [passwordOffset, behindPassword]; omega)),
      Buffer.window_store_disjoint ssidStored
        (Or.inr (by rw [ssidOffset, behindPassword]; omega))]

/-- For every datagram, both receive calls, and every state of the task,
handling is safe exactly when the received bytes leave room for their
terminator, both tokens exist, the first fits its field, and 64 bytes can be
read from the second on. -/
theorem datagram_handled_safely_iff (receiver : Receiver) (task : Task)
    (datagram : List UInt8) (answers : TaskAnswers) :
    HandledSafely receiver task datagram answers ↔
      SafeDatagram (receiver.takes datagram) := by
  rw [HandledSafely]
  generalize receiver.takes datagram = bytes
  constructor
  · rintro ⟨terminated, pwdx, ssid, password, next, calls, isTerminated,
      isSsid, ssidShort, isPassword, _, _, _⟩
    obtain ⟨room, shape⟩ := terminate_eq_ok_iff.mp isTerminated
    obtain ⟨ssidx, found, firstCall, secondCall, tokens⟩ :=
      strtok_tokens shape
    obtain ⟨hasSsid, samePwdx, sameSsid⟩ :=
      (ssidSource_eq_ok_iff firstCall secondCall tokens).mp isSsid
    rw [samePwdx] at isPassword
    obtain ⟨hasPassword, early, _⟩ :=
      (passwordSource_eq_ok_iff tokens).mp isPassword
    rw [sameSsid] at ssidShort
    exact ⟨room, hasSsid, ssidShort, hasPassword, early⟩
  · intro safe
    have room := safe.leavesTerminator
    obtain ⟨received, terminated, first, second, cells⟩ :=
      task.rxBuffer.terminate_of_fits bytes (by omega)
    have isTerminated :
        (task.rxBuffer.store 0 bytes >>= fun received =>
          received.store bytes.length [0]) = .ok terminated :=
      bind_eq_ok_iff.mpr ⟨received, first, second⟩
    obtain ⟨ssidx, pwdx, firstCall, secondCall, tokens⟩ :=
      strtok_tokens cells
    have isSsid : ssidSource terminated = .ok (pwdx, ssidToken bytes) :=
      (ssidSource_eq_ok_iff firstCall secondCall tokens).mpr
        ⟨safe.hasSsid, rfl, rfl⟩
    have isPassword : passwordSource pwdx =
        .ok (pwdx.buffer.window (passwordAt bytes) 64) :=
      (passwordSource_eq_ok_iff tokens).mpr
        ⟨safe.hasPassword, safe.passwordEarly, rfl⟩
    have early := safe.passwordEarly
    have passwordLength :
        (pwdx.buffer.window (passwordAt bytes) 64).length = 64 :=
      pwdx.buffer.length_window (by omega)
    obtain ⟨lead, copied, behind⟩ :=
      copyCredentials_of_sources task.wifiConfig2 isSsid safe.ssidShort
        isPassword passwordLength
    obtain ⟨next, calls, handled, isConfig, _⟩ :=
      receive_of_copied answers first second copied
    refine ⟨terminated, pwdx, ssidToken bytes, _, next, calls,
      isTerminated, isSsid, safe.ssidShort, isPassword,
      Nat.le_of_eq passwordLength, handled, ?_⟩
    rw [isConfig]
    exact ⟨behind, rfl, rfl⟩

/-- An empty datagram has no token: `strlen` is given a null pointer.  With
`recvmsg`, 128 bytes leave no room for the terminator. -/
theorem emptyDatagram_dereferences_null :
    ((Task.start (Buffer.zero 128) emptyStorage).receive
        (.datagram (Receiver.recvfrom.takes []) lostEcho)).map (·.2) =
      .error .nullPointer ∧
    ((Task.start (Buffer.zero 128) emptyStorage).receive
        (.datagram (Receiver.recvmsg.takes (List.replicate 128 97))
          lostEcho)).map (·.2) =
      .error .outOfBounds ∧
    ¬ ∀ receiver task datagram answers,
      HandledSafely receiver task datagram answers := by
  have noToken : ((Task.start (Buffer.zero 128) emptyStorage).receive
      (.datagram (Receiver.recvfrom.takes []) lostEcho)).map (·.2) =
        .error .nullPointer := by
    decide +kernel
  refine ⟨noToken, by decide +kernel, ?_⟩
  intro always
  obtain ⟨_, _, _, _, next, calls, _, _, _, _, _, handled, _⟩ :=
    always .recvfrom (Task.start (Buffer.zero 128) emptyStorage) [] lostEcho
  rw [handled] at noToken
  cases noToken

end Esp32Source.UdpServer
