import Esp32Source.Blufi.Structure

/-!
# From the parameters to the keys

A message with parameters that mbedTLS accepts starts a key exchange: the
parameters are copied and read, their block is freed, and then the public key
and the secret are computed.  A length message that is handled leaves a block
that the parameters fit, so that the exchange starts whenever the library
accepts them.
-/

namespace Esp32Source.Blufi

open Memory Machine

variable {Dhm Aes Env : Type} {mbedtls : Mbedtls Dhm Aes Env}

/-! ## The calls of the library -/

/-- The call of `mbedtls_dhm_read_params` for a message. -/
def readParams (mbedtls : Mbedtls Dhm Aes Env)
    (sec : BlufiSecurity Dhm Aes) (message : Message) (env : Env) :
    Int × Dhm :=
  mbedtls.dhmReadParams env sec.dhm (message.params sec.dhParamLen)

/-- The call of `mbedtls_dhm_make_public` with a context. -/
def publicKeyOf (mbedtls : Mbedtls Dhm Aes Env) (env : Env) (dhm : Dhm) :
    Written Dhm :=
  mbedtls.dhmMakePublic env dhm (mbedtls.sizeP dhm) (mbedtls.sizeP dhm)

/-- The call of `mbedtls_dhm_calc_secret` with a context. -/
def secretOf (mbedtls : Mbedtls Dhm Aes Env) (env : Env) (dhm : Dhm) :
    WrittenSecret Dhm :=
  mbedtls.dhmCalcSecret env dhm shareKeyBitLen

/-- The key exchange of a message starts in the state `start`: the parameters
are read and accepted, and their block is freed. -/
structure StartsExchange (mbedtls : Mbedtls Dhm Aes Env)
    (state : SecurityState Dhm Aes) (message : Message) (env : Env)
    (sec : BlufiSecurity Dhm Aes) (start : SecurityState Dhm Aes) :
    Prop where
  notNull : state.blufiSec ≠ 0
  isData : message.data 0 = secTypeDhParamData
  isSec : state.security = .ok sec
  hasParam : sec.dhParam ≠ 0
  accepted : (readParams mbedtls sec message env).1 = 0
  freed : ∃ heap read,
    copyToDhParam state.heap sec.dhParam
        (message.params sec.dhParamLen) = .ok heap ∧
      SecurityState.modify { state with heap }
          (fun found => .ok { found with
            dhm := (readParams mbedtls sec message env).2 }) = .ok read ∧
      read.freeDhParam = .ok start

variable {state next start : SecurityState Dhm Aes} {message : Message}
  {allocated : Option Nat} {env : Env} {reply : NegotiateReply}
  {sec : BlufiSecurity Dhm Aes}

/-- An output is returned where an exchange ran to its end. -/
theorem starts_of_outputLen {length : Nat}
    (handled :
      blufiDhNegotiateDataHandler mbedtls state message allocated env =
        .ok (next, reply))
    (isOutput : reply.outputLen = some length) :
    ∃ sec start, StartsExchange mbedtls state message env sec start ∧
      keyExchange mbedtls start env (1 + sec.dhParamLen) =
        .ok (next, reply) := by
  rcases handler_cases handled with ⟨_, _, isReply⟩ | ⟨notNull, way⟩
  · rw [isReply] at isOutput
    cases isOutput
  · rcases way with ⟨_, announced⟩ | ⟨isData, brought⟩ | ⟨_, isReply⟩
    · obtain ⟨_, _, rest⟩ := bind_eq_ok_iff.mp announced
      obtain ⟨_, _, rest⟩ := bind_eq_ok_iff.mp rest
      obtain ⟨_, _, rest⟩ := bind_eq_ok_iff.mp rest
      cases rest
      cases isOutput
    · obtain ⟨sec, isSec, way⟩ := dhParamDataCase_cases brought
      rcases way with ⟨_, _, isReply⟩ |
        ⟨hasParam, heap, read, isCopied, isRead, way⟩
      · rw [isReply] at isOutput
        cases isOutput
      · rcases way with ⟨_, isReply⟩ |
          ⟨accepted, freed, isFreed, exchanged⟩
        · rw [isReply] at isOutput
          cases isOutput
        · exact ⟨sec, freed, ⟨notNull, isData, isSec, hasParam, accepted,
            heap, read, isCopied, isRead, isFreed⟩, exchanged⟩
    · rw [isReply] at isOutput
      cases isOutput

/-! ## The block that a length message leaves -/

theorem SecurityState.live_of_security
    (isSec : state.security = .ok sec) :
    state.blufiSec ≠ 0 ∧
      state.heap.block state.blufiSec = some (.security sec) :=
  Heap.load_eq_ok_iff.mp (SecurityState.security_eq_ok_iff.mp isSec)

theorem keptByDhParam_length (length : Nat) :
    KeptByDhParam fun sec : BlufiSecurity Dhm Aes =>
      sec.dhParamLen = length := by
  intro sec stored number isLength isStored
  obtain ⟨changed, put, _, _, elsewhere⟩ :=
    sec.put_of_fits dhParamAt (encode 4 number) (by
      rw [length_encode]
      decide)
  cases isStored.symm.trans put
  rw [length_encode] at elsewhere
  rw [BlufiSecurity.dhParamLen,
    elsewhere dhParamLenAt 4 (Or.inr (by decide))]
  exact isLength

/-- Whatever the state is, a length message that is handled leaves no block,
or one of the announced length. -/
theorem param_of_dhParamLenCase
    (handled :
      dhParamLenCase state message allocated = .ok (next, reply)) :
    ∃ sec, next.security = .ok sec ∧
      (sec.dhParam ≠ 0 → ∃ content,
        ParamLive next sec content ∧ content.length = sec.dhParamLen) := by
  obtain ⟨announced, isAnnounced, rest⟩ := bind_eq_ok_iff.mp handled
  obtain ⟨released, isReleased, rest⟩ := bind_eq_ok_iff.mp rest
  obtain ⟨pointed, isPointed, rest⟩ := bind_eq_ok_iff.mp rest
  cases rest
  have highByte := (message.data 1).toNat_lt
  have lowByte := (message.data 2).toNat_lt
  generalize isNumber :
    (message.data 1).toNat * 256 + (message.data 2).toNat = length
    at isAnnounced isPointed
  have announcedHas :
      Has (fun sec => sec.dhParamLen = length) announced := by
    obtain ⟨old, changed, _, changes, isChanged⟩ :=
      SecurityState.modify_eq_ok isAnnounced
    obtain ⟨same, put, _, isLength, _⟩ :=
      old.put_dhParamLen length (by omega)
    cases changes.symm.trans put
    exact ⟨changed, isChanged, isLength⟩
  obtain ⟨old, isOld, isLength⟩ :=
    announcedHas.releaseDhParam (keptByDhParam_length length) isReleased
  obtain ⟨notNull, live⟩ := SecurityState.live_of_security isOld
  obtain ⟨found, changed, modified, sameLength, _, way⟩ :=
    released.allocate notNull live allocated (List.replicate length 0)
  cases isPointed.symm.trans modified
  rcases way with ⟨isNull, isNext⟩ | ⟨hasParam, apart, isNext⟩
  · rw [isNext]
    exact ⟨changed, SecurityState.security_withSecurity notNull changed,
      fun notZero => absurd isNull notZero⟩
  · rw [isNext]
    refine ⟨changed, SecurityState.security_withSecurity ?_ changed, ?_⟩
    · exact notNull
    · intro _
      refine ⟨List.replicate length 0,
        ⟨notNull, Function.update_self _ _ _, hasParam, ?_⟩, ?_⟩
      · exact (Function.update_of_ne apart _ _).trans
          (Function.update_self _ _ _)
      · rw [List.length_replicate, sameLength, isLength]

/-- The parameters are copied, read and freed, and the exchange starts with
the context that was read. -/
theorem ParamLive.starts {content : List UInt8}
    (live : ParamLive state sec content)
    (fits : content.length = sec.dhParamLen)
    (isData : message.data 0 = secTypeDhParamData)
    (accepted : (readParams mbedtls sec message env).1 = 0) :
    ∃ start found,
      StartsExchange mbedtls state message env sec start ∧
        start.security = .ok found ∧
        found.dhm = (readParams mbedtls sec message env).2 := by
  have length : (message.params sec.dhParamLen).length ≤
      content.length := by
    rw [Message.params, List.length_map, List.length_range, fits]
  obtain ⟨isCopied, copiedLive⟩ := live.copyToDhParam length
  obtain ⟨isRead, readLive⟩ :=
    copiedLive.withDhm (readParams mbedtls sec message env).2
  obtain ⟨found, isFreed, sameDhm, _⟩ := readLive.freeDhParam
  have isSec := SecurityState.security_of_live live.notNull live.live
  refine ⟨_, found, ⟨live.notNull, isData, isSec, live.hasParam, accepted,
    _, _, isCopied, isRead, isFreed⟩,
    SecurityState.security_withSecurity ?_ found, sameDhm⟩
  exact live.notNull

/-- The exchange starts with the context that was read. -/
theorem StartsExchange.dhm_eq {found : BlufiSecurity Dhm Aes}
    (starts : StartsExchange mbedtls state message env sec start)
    (isFound : start.security = .ok found) :
    found.dhm = (readParams mbedtls sec message env).2 := by
  obtain ⟨heap, read, isCopied, isRead, isFreed⟩ := starts.freed
  have has : Has (fun _ => True) state := ⟨sec, starts.isSec, trivial⟩
  have readHas : Has (fun found =>
      found.dhm = (readParams mbedtls sec message env).2) read :=
    has.readParams (fun _ _ => rfl) isCopied isRead
  have kept : KeptByDhParam fun found : BlufiSecurity Dhm Aes =>
      found.dhm = (readParams mbedtls sec message env).2 := by
    intro old stored number isDhm isStored
    obtain ⟨raw, _, rest⟩ := bind_eq_ok_iff.mp isStored
    cases rest
    exact isDhm
  obtain ⟨same, isSame, isDhm⟩ := readHas.freeDhParam kept isFreed
  cases isFound.symm.trans isSame
  exact isDhm

/-! ## The two calls of the exchange -/

/-- A public key that fits its array is made in place. -/
theorem makePublic_of_short {found : BlufiSecurity Dhm Aes}
    (isFound : state.security = .ok found)
    (short : (publicKeyOf mbedtls env found.dhm).output.length ≤ 128) :
    ∃ published after,
      makePublic mbedtls state env =
          .ok (published, (publicKeyOf mbedtls env found.dhm).ret) ∧
        published.security = .ok after ∧
        after.dhm = (publicKeyOf mbedtls env found.dhm).dhm := by
  obtain ⟨notNull, live⟩ := SecurityState.live_of_security isFound
  obtain ⟨stored, put, _⟩ :=
    found.put_of_fits selfPublicKeyAt
      (publicKeyOf mbedtls env found.dhm).output (by
        rw [selfPublicKeyAt]
        omega)
  exact ⟨_, _, makePublic_of_put notNull live rfl put,
    SecurityState.security_withSecurity notNull _, rfl⟩

/-- What the call of `mbedtls_dhm_make_public` leaves, if it returns. -/
theorem makePublic_eq_ok {published : SecurityState Dhm Aes} {ret : Int}
    {found : BlufiSecurity Dhm Aes}
    (isFound : state.security = .ok found)
    (made : makePublic mbedtls state env = .ok (published, ret)) :
    ret = (publicKeyOf mbedtls env found.dhm).ret ∧
      Has (fun after =>
        after.dhm = (publicKeyOf mbedtls env found.dhm).dhm) published := by
  have has : Has (fun sec => sec.dhm = found.dhm) state :=
    ⟨found, isFound, rfl⟩
  refine ⟨?_, has.makePublic ?_ made⟩
  · obtain ⟨same, isSame, rest⟩ := bind_eq_ok_iff.mp made
    obtain ⟨stored, _, rest⟩ := bind_eq_ok_iff.mp rest
    cases isFound.symm.trans isSame
    cases rest
    rfl
  · intro old stored sameDhm _
    rw [publicKeyOf, ← sameDhm]

/-- A secret that fits its array is computed in place. -/
theorem calcSecret_of_short {found : BlufiSecurity Dhm Aes}
    (isFound : state.security = .ok found)
    (short : (secretOf mbedtls env found.dhm).output.length ≤ 128) :
    ∃ shared, calcSecret mbedtls state env = .ok shared := by
  obtain ⟨notNull, live⟩ := SecurityState.live_of_security isFound
  have measures : ∃ measured, found.putShareLen
      (secretOf mbedtls env found.dhm).olen = .ok measured := by
    cases (secretOf mbedtls env found.dhm).olen with
    | none =>
        exact ⟨found, rfl⟩
    | some length =>
        obtain ⟨measured, put, _⟩ :=
          found.put_of_fits shareLenAt (encode 4 length) (by
            rw [length_encode]
            decide)
        exact ⟨measured, put⟩
  obtain ⟨measured, isMeasured⟩ := measures
  obtain ⟨stored, put, _⟩ :=
    measured.put_of_fits shareKeyAt
      (secretOf mbedtls env found.dhm).output (by
        rw [shareKeyAt]
        omega)
  exact ⟨_, calcSecret_of_put notNull live rfl isMeasured put⟩

/-- Between the two calls of an exchange that starts, the context is the one
that `mbedtls_dhm_make_public` leaves. -/
theorem StartsExchange.published {published : SecurityState Dhm Aes}
    {after : BlufiSecurity Dhm Aes} {ret : Int}
    (starts : StartsExchange mbedtls state message env sec start)
    (made : makePublic mbedtls start env = .ok (published, ret))
    (isAfter : published.security = .ok after) :
    ret = (publicKeyOf mbedtls env
        (readParams mbedtls sec message env).2).ret ∧
      after.dhm = (publicKeyOf mbedtls env
        (readParams mbedtls sec message env).2).dhm := by
  obtain ⟨found, isFound, _⟩ := bind_eq_ok_iff.mp made
  obtain ⟨isRet, same, isSame, isDhm⟩ := makePublic_eq_ok isFound made
  rw [starts.dhm_eq isFound] at isRet isDhm
  cases isAfter.symm.trans isSame
  exact ⟨isRet, isDhm⟩

end Esp32Source.Blufi
