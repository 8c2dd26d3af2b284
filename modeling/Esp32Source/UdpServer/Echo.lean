import Esp32Source.UdpServer.Datagram

/-!
# The answer to a datagram

The task echoes the buffer that `strtok` has gone over.  It comes to `sendto`
only when both tokens exist, so a separator stands behind the first one, and
there the echo has a NUL: an answer has the length of its datagram, but never
its bytes.
-/

namespace Esp32Source.UdpServer

open Memory Machine Wifi

/-- Whatever is passed to `sendto` is the bytes received. -/
def Echoes (bytes : List UInt8) (calls : List TaskCall) : Prop :=
  ∀ echo, .sendto echo ∈ calls → echo = bytes

/-- A datagram that is answered went through both copies, and the answer is
the beginning of the buffer. -/
theorem receive_copies {task next : Task} {bytes : List UInt8}
    {answers : TaskAnswers} {calls : List TaskCall}
    (answered :
      task.receive (.datagram bytes answers) = .ok (next, calls)) :
    ∃ received terminated tokens config,
      task.rxBuffer.store 0 bytes = .ok received ∧
        received.store bytes.length [0] = .ok terminated ∧
        copyCredentials terminated task.wifiConfig2 =
          .ok (tokens, config) ∧
        .sendto (tokens.window 0 bytes.length) ∈ calls := by
  obtain ⟨received, first, rest⟩ := bind_eq_ok_iff.mp answered
  obtain ⟨terminated, second, rest⟩ := bind_eq_ok_iff.mp rest
  obtain ⟨⟨storage, reply⟩, _, rest⟩ := bind_eq_ok_iff.mp rest
  obtain ⟨⟨tokens, config⟩, copied, rest⟩ := bind_eq_ok_iff.mp rest
  obtain ⟨echo, loaded, rest⟩ := bind_eq_ok_iff.mp rest
  have fits := (Buffer.store_eq_ok_iff.mp first).1
  rw [Buffer.load_of_fits _ _ _ fits] at loaded
  cases loaded
  refine ⟨received, terminated, tokens, config, first, second, copied, ?_⟩
  by_cases sends : answers.sends
  · simp only [if_pos sends] at rest
    cases rest
    exact List.mem_cons_self
  · simp only [if_neg sends] at rest
    cases rest
    exact List.mem_cons_self

/-- A text with a second token has a delimiter behind the first. -/
theorem separator_behind_ssid {bytes : List UInt8}
    (hasPassword : passwordToken bytes ≠ []) :
    ∃ more, behindToken [separator] (cText bytes) = separator :: more := by
  cases behind : behindToken [separator] (cText bytes) with
  | nil =>
      rw [passwordToken, behindSsid, behind] at hasPassword
      exact absurd rfl hasPassword
  | cons stop more =>
      refine ⟨more, ?_⟩
      rw [List.mem_singleton.mp (head_behindToken behind)]

/-- The datagram up to the byte behind its first token. -/
theorem bytes_up_to_separator {bytes : List UInt8}
    (hasPassword : passwordToken bytes ≠ []) :
    ∃ rest, bytes =
      (tokenGap [separator] (cText bytes) ++ ssidToken bytes) ++
        separator :: rest := by
  obtain ⟨more, isMore⟩ := separator_behind_ssid hasPassword
  have whole := tokenGap_append [separator] (cText bytes)
  rw [isMore] at whole
  obtain ⟨tail, isTail⟩ : cText bytes <+: bytes := List.takeWhile_prefix _
  refine ⟨more ++ tail, ?_⟩
  calc bytes = cText bytes ++ tail := isTail.symm
    _ = (tokenGap [separator] (cText bytes) ++
          (ssidToken bytes ++ separator :: more)) ++ tail := by
        rw [ssidToken, whole]
    _ = _ := by
        simp only [List.append_assoc, List.cons_append]

/-- The byte behind the first token is a separator in the datagram and a NUL
in the buffer. -/
theorem separator_overwritten {bytes : List UInt8}
    {ssidx pwdx : Strtok 128} (tokens : Tokens bytes ssidx pwdx)
    (hasSsid : ssidToken bytes ≠ [])
    (hasPassword : passwordToken bytes ≠ []) :
    ∃ index : Nat, bytes[index]? = some separator ∧
      pwdx.buffer.cells[index]? = some 0 := by
  obtain ⟨behind, shape⟩ := bytes_up_to_separator hasPassword
  obtain ⟨rest, cells⟩ := tokens.cells hasSsid
  refine ⟨(tokenGap [separator] (cText bytes) ++ ssidToken bytes).length,
    ?_, ?_⟩
  · -- the index mentions the datagram as well, so only the list is rewritten
    refine (congrArg (fun list : List UInt8 => list[_]?) shape).trans ?_
    rw [List.getElem?_append_right (Nat.le_refl _), Nat.sub_self]
    rfl
  · rw [cells, ← List.append_assoc,
      List.getElem?_append_right (Nat.le_refl _), Nat.sub_self]
    rfl

/-- Every datagram that is answered has two tokens, and the buffer is the one
`strtok` leaves. -/
theorem tokens_of_copied {terminated tokens : Buffer 128}
    {bytes behind : List UInt8} {config next : StaConfig}
    (shape : terminated.cells = bytes ++ 0 :: behind)
    (copied : copyCredentials terminated config = .ok (tokens, next)) :
    ∃ ssidx pwdx : Strtok 128, Tokens bytes ssidx pwdx ∧
      ssidToken bytes ≠ [] ∧ passwordToken bytes ≠ [] ∧
        tokens = pwdx.buffer := by
  rw [copyCredentials_eq] at copied
  obtain ⟨⟨found, ssid⟩, isSsid, copied⟩ := bind_eq_ok_iff.mp copied
  obtain ⟨withSsid, _, copied⟩ := bind_eq_ok_iff.mp copied
  obtain ⟨password, isPassword, copied⟩ := bind_eq_ok_iff.mp copied
  obtain ⟨lead, _, copied⟩ := bind_eq_ok_iff.mp copied
  obtain ⟨ssidx, pwdx, firstCall, secondCall, isTokens⟩ :=
    strtok_tokens shape
  obtain ⟨hasSsid, isFound, _⟩ :=
    (ssidSource_eq_ok_iff firstCall secondCall isTokens).mp isSsid
  rw [isFound] at isPassword
  obtain ⟨hasPassword, _, _⟩ :=
    (passwordSource_eq_ok_iff isTokens).mp isPassword
  cases copied
  exact ⟨ssidx, pwdx, isTokens, hasSsid, hasPassword, by rw [isFound]⟩

/-- No datagram is echoed: an answer has as many bytes as were received, but
at least one separator has become a NUL. -/
theorem answer_never_echoes (receiver : Receiver) (task next : Task)
    (datagram : List UInt8) (answers : TaskAnswers)
    (calls : List TaskCall)
    (answered :
      task.receive (.datagram (receiver.takes datagram) answers) =
        .ok (next, calls)) :
    ¬ Echoes (receiver.takes datagram) calls ∧
      ∃ (echo : List UInt8) (index : Nat), .sendto echo ∈ calls ∧
        echo.length = (receiver.takes datagram).length ∧
        (receiver.takes datagram)[index]? = some separator ∧
        echo[index]? = some 0 := by
  generalize receiver.takes datagram = bytes at answered ⊢
  obtain ⟨received, terminated, tokens, config, first, second, copied,
    sent⟩ := receive_copies answered
  have isTerminated :
      (task.rxBuffer.store 0 bytes >>= fun received =>
        received.store bytes.length [0]) = .ok terminated :=
    bind_eq_ok_iff.mpr ⟨received, first, second⟩
  obtain ⟨room, shape⟩ := terminate_eq_ok_iff.mp isTerminated
  obtain ⟨ssidx, pwdx, isTokens, hasSsid, hasPassword, isBuffer⟩ :=
    tokens_of_copied shape copied
  obtain ⟨index, isSeparator, isNul⟩ :=
    separator_overwritten isTokens hasSsid hasPassword
  have inside : index < bytes.length :=
    (List.getElem?_eq_some_iff.mp isSeparator).1
  have echoed :
      (tokens.window 0 bytes.length)[index]? = some 0 := by
    rw [isBuffer, Buffer.window, Memory.window, List.drop_zero,
      List.getElem?_take_of_lt inside, isNul]
  refine ⟨?_, tokens.window 0 bytes.length, index, sent,
    tokens.length_window (by omega), isSeparator, echoed⟩
  intro echoes
  rw [echoes _ sent, isSeparator] at echoed
  exact absurd (Option.some.inj echoed) (by decide)

/-- `cafe;87654321`. -/
def credentials : List UInt8 :=
  [99, 97, 102, 101, 59, 56, 55, 54, 53, 52, 51, 50, 49]

/-- The bytes passed to `sendto`, if the task comes so far. -/
def echoOf (result : Except Fault (Task × List TaskCall)) :
    Option (List UInt8) :=
  match result with
  | .ok (_, .sendto echo :: _) => some echo
  | _ => none

/-- `cafe;87654321` comes back with a NUL between the two words. -/
theorem credentials_come_back_changed :
    echoOf ((Task.start (Buffer.zero 128) emptyStorage).receive
      (.datagram (Receiver.recvfrom.takes credentials) lostEcho)) =
        some [99, 97, 102, 101, 0, 56, 55, 54, 53, 52, 51, 50, 49] ∧
      ¬ ∀ (receiver : Receiver) (task next : Task) (datagram : List UInt8)
        (answers : TaskAnswers) (calls : List TaskCall),
        task.receive (.datagram (receiver.takes datagram) answers) =
          .ok (next, calls) →
        Echoes (receiver.takes datagram) calls := by
  have changed : echoOf
      ((Task.start (Buffer.zero 128) emptyStorage).receive
        (.datagram (Receiver.recvfrom.takes credentials) lostEcho)) =
          some [99, 97, 102, 101, 0, 56, 55, 54, 53, 52, 51, 50, 49] := by
    decide +kernel
  refine ⟨changed, ?_⟩
  intro always
  cases answered : (Task.start (Buffer.zero 128) emptyStorage).receive
      (.datagram (Receiver.recvfrom.takes credentials) lostEcho) with
  | error fault =>
      rw [answered] at changed
      cases changed
  | ok result =>
      obtain ⟨next, calls⟩ := result
      have echoes := always _ _ _ _ _ _ answered
      rw [answered] at changed
      match calls with
      | [] => cases changed
      | .sendto echo :: rest =>
          have isBytes := echoes echo List.mem_cons_self
          have isChanged := Option.some.inj changed
          rw [isBytes] at isChanged
          exact absurd isChanged (by decide)

/-- `cafe;87654321` is answered. -/
theorem answer_never_echoes_credentials :
    ∃ next calls,
      (Task.start (Buffer.zero 128) emptyStorage).receive
          (.datagram (Receiver.recvfrom.takes credentials) lostEcho) =
            .ok (next, calls) ∧
        ¬ Echoes (Receiver.recvfrom.takes credentials) calls := by
  cases answered : (Task.start (Buffer.zero 128) emptyStorage).receive
      (.datagram (Receiver.recvfrom.takes credentials) lostEcho) with
  | error fault =>
      have isOk : ((Task.start (Buffer.zero 128) emptyStorage).receive
          (.datagram (Receiver.recvfrom.takes credentials)
            lostEcho)).toOption.isSome = true := by
        decide +kernel
      rw [answered] at isOk
      cases isOk
  | ok result =>
      exact ⟨result.1, result.2, rfl,
        (answer_never_echoes .recvfrom _ result.1 _ lostEcho result.2
          answered).1⟩

end Esp32Source.UdpServer
