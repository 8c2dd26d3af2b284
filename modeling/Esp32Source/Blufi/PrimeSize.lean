import Esp32Source.Blufi.Exchange
import Esp32Source.Blufi.Packets

/-!
# The size of the prime

The peer chooses the prime, and its size decides how much three calls of
mbedTLS write.  The public key is made with the size of the prime as the size
of the output, whose array has 128 bytes; for the secret the size of the array
is passed in bits, as 1024 bytes; and whether the secret was computed is not
asked before it is hashed.

A length message that is handled leaves a block that the parameters fit, so
that the message behind it comes as far as the library lets it.  Then nothing
is too long and no key is made from nothing exactly when the prime has at most
128 bytes and the secret is computed.
-/

namespace Esp32Source.Blufi

open Memory Machine

variable {Dhm Aes Env : Type} {mbedtls : Mbedtls Dhm Aes Env}

/-- The sizes that mbedTLS writes: a public key fills its output if it is made
and else leaves it alone, and the secret has at most the size of the prime,
which both calls keep. -/
structure Mbedtls.WritesSizes (mbedtls : Mbedtls Dhm Aes Env) : Prop where
  makePublic_fills : ∀ env dhm xSize olen,
    (mbedtls.dhmMakePublic env dhm xSize olen).ret = 0 →
      (mbedtls.dhmMakePublic env dhm xSize olen).output.length = olen
  makePublic_fails : ∀ env dhm xSize olen,
    (mbedtls.dhmMakePublic env dhm xSize olen).ret ≠ 0 →
      (mbedtls.dhmMakePublic env dhm xSize olen).output = []
  makePublic_sizeP : ∀ env dhm xSize olen,
    mbedtls.sizeP (mbedtls.dhmMakePublic env dhm xSize olen).dhm =
      mbedtls.sizeP dhm
  calcSecret_length : ∀ env dhm outputSize,
    (mbedtls.dhmCalcSecret env dhm outputSize).output.length ≤
      mbedtls.sizeP dhm
  calcSecret_sizeP : ∀ env dhm outputSize,
    mbedtls.sizeP (mbedtls.dhmCalcSecret env dhm outputSize).dhm =
      mbedtls.sizeP dhm

/-- What has to hold of the sizes when a message is handled. -/
structure PrimeFits (mbedtls : Mbedtls Dhm Aes Env)
    (state : SecurityState Dhm Aes) (message : Message)
    (allocated : Option Nat) (env : Env) : Prop where
  /-- At most 128 bytes are written to `self_public_key`. -/
  publicKey : ∀ sec start found,
    StartsExchange mbedtls state message env sec start →
      start.security = .ok found →
        (publicKeyOf mbedtls env found.dhm).output.length ≤ 128
  /-- At most 128 bytes are written to `share_key`. -/
  shareKey : ∀ sec start published found,
    StartsExchange mbedtls state message env sec start →
      makePublic mbedtls start env = .ok (published, 0) →
        published.security = .ok found →
          (secretOf mbedtls env found.dhm).output.length ≤ 128
  /-- Where the secret is hashed, it was computed. -/
  derived : ∀ sec start published found shared,
    StartsExchange mbedtls state message env sec start →
      makePublic mbedtls start env = .ok (published, 0) →
        published.security = .ok found →
          calcSecret mbedtls published env = .ok shared →
            (secretOf mbedtls env found.dhm).ret = 0
  outputLen : ∀ next reply length,
    blufiDhNegotiateDataHandler mbedtls state message allocated env =
      .ok (next, reply) → reply.outputLen = some length → length ≤ 128

/-- If the parameters are accepted and a public key is made, the prime has at
most 128 bytes and the secret is computed. -/
def AcceptsShortPrime (mbedtls : Mbedtls Dhm Aes Env)
    (state : SecurityState Dhm Aes) (message : Message) (env : Env) :
    Prop :=
  ∀ sec,
    state.blufiSec ≠ 0 → message.data 0 = secTypeDhParamData →
      state.security = .ok sec → sec.dhParam ≠ 0 →
        (readParams mbedtls sec message env).1 = 0 →
          (publicKeyOf mbedtls env
            (readParams mbedtls sec message env).2).ret = 0 →
            mbedtls.sizeP (readParams mbedtls sec message env).2 ≤ 128 ∧
              (secretOf mbedtls env (publicKeyOf mbedtls env
                (readParams mbedtls sec message env).2).dhm).ret = 0

variable {state next start : SecurityState Dhm Aes} {message : Message}
  {allocated : Option Nat} {env : Env} {reply : NegotiateReply}
  {sec : BlufiSecurity Dhm Aes}

/-- The size of the prime is kept to the end of an exchange. -/
theorem sizeP_of_keyExchange (sizes : mbedtls.WritesSizes)
    {dataRead length size : Nat}
    (has : Has (fun sec => mbedtls.sizeP sec.dhm = size) start)
    (exchanged :
      keyExchange mbedtls start env dataRead = .ok (next, reply))
    (isOutput : reply.outputLen = some length) : length = size := by
  obtain ⟨published, publicRet, isPublished, way⟩ :=
    keyExchange_cases exchanged
  rcases way with
    ⟨_, isReply⟩ | ⟨_, shared, hashed, hashRet, isShared, isHashed, way⟩
  · rw [isReply] at isOutput
    cases isOutput
  · rcases way with ⟨_, isReply⟩ | ⟨isKeyed, final, isFinal, isReply⟩
    · rw [isReply] at isOutput
      cases isOutput
    · have publishedHas :
          Has (fun sec => mbedtls.sizeP sec.dhm = size) published := by
        refine has.makePublic ?_ isPublished
        intro old stored same _
        exact (sizes.makePublic_sizeP _ _ _ _).trans same
      have sharedHas :
          Has (fun sec => mbedtls.sizeP sec.dhm = size) shared := by
        refine publishedHas.calcSecret ?_ isShared
        intro old measured stored same _ _
        exact (sizes.calcSecret_sizeP _ _ _).trans same
      have hashedHas :
          Has (fun sec => mbedtls.sizeP sec.dhm = size) hashed := by
        refine sharedHas.hashSecret ?_ isHashed
        intro old digest stored same isStored
        obtain ⟨raw, _, rest⟩ := bind_eq_ok_iff.mp isStored
        cases rest
        exact same
      have finalHas :
          Has (fun sec => mbedtls.sizeP sec.dhm = size) next := by
        refine has_of_setKey ?_ isKeyed
        intro found isFound
        obtain ⟨same, isSame, isSize⟩ := hashedHas
        cases isFound.symm.trans isSame
        exact isSize
      obtain ⟨same, isSame, isSize⟩ := finalHas
      cases isFinal.symm.trans isSame
      rw [isReply] at isOutput
      cases isOutput
      exact isSize

/-- A short prime, and a secret that is computed, keep every size. -/
theorem primeFits_of_accepts (sizes : mbedtls.WritesSizes)
    (accepts : AcceptsShortPrime mbedtls state message env) :
    PrimeFits mbedtls state message allocated env := by
  have short (sec : BlufiSecurity Dhm Aes) (start : SecurityState Dhm Aes)
      (starts : StartsExchange mbedtls state message env sec start) :=
    accepts sec starts.notNull starts.isData starts.isSec starts.hasParam
      starts.accepted
  refine ⟨?_, ?_, ?_, ?_⟩
  · intro sec start found starts isFound
    rw [starts.dhm_eq isFound]
    by_cases isMade : (publicKeyOf mbedtls env
        (readParams mbedtls sec message env).2).ret = 0
    · have length := sizes.makePublic_fills _ _ _ _ isMade
      rw [publicKeyOf, length]
      exact (short sec start starts isMade).1
    · have nothing := sizes.makePublic_fails _ _ _ _ isMade
      rw [publicKeyOf, nothing]
      exact Nat.zero_le 128
  · intro sec start published found starts made isFound
    obtain ⟨isRet, isDhm⟩ := starts.published made isFound
    have length :=
      sizes.calcSecret_length env found.dhm shareKeyBitLen
    have kept := sizes.makePublic_sizeP env
      (readParams mbedtls sec message env).2
      (mbedtls.sizeP (readParams mbedtls sec message env).2)
      (mbedtls.sizeP (readParams mbedtls sec message env).2)
    have primeShort := (short sec start starts isRet.symm).1
    rw [publicKeyOf] at isDhm
    rw [secretOf]
    rw [isDhm, kept, ← isDhm] at length
    exact Nat.le_trans length primeShort
  · intro sec start published found shared starts made isFound _
    obtain ⟨isRet, isDhm⟩ := starts.published made isFound
    rw [isDhm]
    exact (short sec start starts isRet.symm).2
  · intro next reply length handled isOutput
    obtain ⟨sec, start, starts, exchanged⟩ :=
      starts_of_outputLen handled isOutput
    obtain ⟨published, publicRet, isPublished, way⟩ :=
      keyExchange_cases exchanged
    obtain ⟨found, isFound, _⟩ := bind_eq_ok_iff.mp isPublished
    have size := sizeP_of_keyExchange sizes ⟨found, isFound, rfl⟩ exchanged
      isOutput
    rcases way with ⟨_, isReply⟩ | ⟨isMade, _⟩
    · rw [isReply] at isOutput
      cases isOutput
    · obtain ⟨isRet, _⟩ := makePublic_eq_ok isFound isPublished
      have sameDhm := starts.dhm_eq isFound
      rw [isMade, sameDhm] at isRet
      rw [size, sameDhm]
      exact (short sec start starts isRet.symm).1

/-- Behind a length message that was handled, the library decides. -/
theorem accepts_of_primeFits (sizes : mbedtls.WritesSizes)
    {first : Message} {earlier : SecurityState Dhm Aes}
    (announced : dhParamLenCase earlier first allocated = .ok (state, reply))
    {answer : Option Nat}
    (fits : PrimeFits mbedtls state message answer env) :
    AcceptsShortPrime mbedtls state message env := by
  intro sec _ isData isSec hasParam accepted isMade
  obtain ⟨same, isSame, leaves⟩ := param_of_dhParamLenCase announced
  cases isSec.symm.trans isSame
  obtain ⟨content, live, length⟩ := leaves hasParam
  obtain ⟨start, found, starts, isFound, sameDhm⟩ :=
    live.starts length isData accepted
  have publicShort := fits.publicKey sec start found starts isFound
  have publicLength := sizes.makePublic_fills _ _ _ _ isMade
  obtain ⟨published, after, made, isAfter, afterDhm⟩ :=
    makePublic_of_short isFound publicShort
  rw [sameDhm] at made afterDhm
  rw [isMade] at made
  have secretShort :=
    fits.shareKey sec start published after starts made isAfter
  obtain ⟨shared, calculated⟩ := calcSecret_of_short isAfter secretShort
  have computed :=
    fits.derived sec start published after shared starts made isAfter
      calculated
  rw [afterDhm] at computed
  refine ⟨?_, computed⟩
  rw [sameDhm, publicKeyOf, publicLength] at publicShort
  exact publicShort

/-- For every pair of messages and every library, from any state in which the
first is handled: the second keeps within the arrays, and makes a key from a
computed secret only, exactly when an accepted prime has at most 128 bytes and
its secret is computed. -/
theorem prime_fits_iff (sizes : mbedtls.WritesSizes)
    (earlier middle : SecurityState Dhm Aes) (first second : Message)
    (allocated answer : Option Nat) (earlierEnv env : Env)
    (reply : NegotiateReply)
    (isLen : first.data 0 = secTypeDhParamLen)
    (announced :
      blufiDhNegotiateDataHandler mbedtls earlier first allocated
        earlierEnv = .ok (middle, reply)) :
    PrimeFits mbedtls middle second answer env ↔
      AcceptsShortPrime mbedtls middle second env := by
  constructor
  · intro fits
    by_cases isNull : earlier.blufiSec = 0
    · rw [handler_of_null isNull] at announced
      cases announced
      intro sec notNull
      exact absurd isNull notNull
    · rw [handler_of_len isNull isLen] at announced
      exact accepts_of_primeFits sizes announced fits
  · intro accepts
    exact primeFits_of_accepts sizes accepts

/-! ## A long prime -/

theorem textbookMbedtls_writesSizes : textbookMbedtls.WritesSizes where
  makePublic_fills x context _ olen := by
    simp only [textbookMbedtls, textbookMakePublic]
    cases mpiExpMod context.g x context.p with
    | none =>
        intro isMade
        cases isMade
    | some gx =>
        dsimp only
        split
        · intro _
          exact length_mpiWriteBinary gx olen
        · intro isMade
          cases isMade
  makePublic_fails x context _ olen := by
    simp only [textbookMbedtls, textbookMakePublic]
    cases mpiExpMod context.g x context.p with
    | none =>
        exact fun _ => rfl
    | some gx =>
        dsimp only
        split
        · intro fails
          exact absurd rfl fails
        · exact fun _ => rfl
  makePublic_sizeP := textbookMbedtls_documented.makePublic_sizeP
  calcSecret_length := textbookMbedtls_documented.calcSecret_length
  calcSecret_sizeP _ context outputSize := by
    simp only [textbookMbedtls, textbookCalcSecret]
    split
    · rfl
    · split
      · rfl
      · cases mpiExpMod context.gy context.x context.p with
        | none =>
            rfl
        | some k =>
            rfl

/-- The length of the parameters is announced on a fresh connection. -/
def announce (params : List UInt8) :
    Except Fault (SecurityState DhContext (List UInt8) × NegotiateReply) :=
  blufiDhNegotiateDataHandler textbookMbedtls
    (blufiSecurityInit textbookMbedtls SecurityState.initial
      (some 0x3ffb1000))
    (dhParamLenMessage params) (some 0x3ffb2000) 3

theorem dhParamLenMessage_type (params : List UInt8) :
    (dhParamLenMessage params).data 0 = secTypeDhParamLen := by
  rw [dhParamLenMessage, Message.ofBytes_data]
  rfl

theorem prime_fits_iff_shortPrime :
    ∃ middle reply, announce (squareParams 5) = .ok (middle, reply) ∧
      PrimeFits textbookMbedtls middle
        (dhParamDataMessage (squareParams 5)) none 3 := by
  have sizes :
      (announce (squareParams 5) >>= fun result =>
        result.1.security).map (fun sec =>
          (mpiSize (readParams textbookMbedtls sec
              (dhParamDataMessage (squareParams 5)) 3).2.p,
            (secretOf textbookMbedtls 3
              (publicKeyOf textbookMbedtls 3
                (readParams textbookMbedtls sec
                  (dhParamDataMessage (squareParams 5)) 3).2).dhm).ret)) =
        .ok (1, 0) := by
    decide +kernel
  obtain ⟨found, reached, computed⟩ := map_eq_ok_iff.mp sizes
  obtain ⟨⟨middle, reply⟩, announced, isFound⟩ :=
    bind_eq_ok_iff.mp reached
  obtain ⟨isSize, isRet⟩ := Prod.mk.inj computed
  refine ⟨middle, reply, announced, ?_⟩
  refine (prime_fits_iff textbookMbedtls_writesSizes _ middle _
    (dhParamDataMessage (squareParams 5)) _ none 3 3 reply
    (dhParamLenMessage_type (squareParams 5)) announced).mpr ?_
  intro sec _ _ isSec _ _ _
  cases isSec.symm.trans isFound
  exact ⟨Nat.le_trans (Nat.le_of_eq isSize) (by decide), isRet⟩

/-- With a prime of 300 bytes as many are written to the array of the public
key, and returned. -/
theorem longPrime_overflows_publicKey :
    textbookMbedtls.WritesSizes ∧
    (announce (squareParams longRoot) >>= fun result =>
      blufiDhNegotiateDataHandler textbookMbedtls result.1
        (dhParamDataMessage (squareParams longRoot)) none 3).map
        (fun result => result.2.outputLen) = .ok (some 300) ∧
    ¬ ∀ (earlier middle : SecurityState DhContext (List UInt8))
        (first second : Message) (allocated answer : Option Nat)
        (earlierEnv env : Nat) (reply : NegotiateReply),
      first.data 0 = secTypeDhParamLen →
        blufiDhNegotiateDataHandler textbookMbedtls earlier first allocated
          earlierEnv = .ok (middle, reply) →
          PrimeFits textbookMbedtls middle second answer env := by
  have returned :
      (announce (squareParams longRoot) >>= fun result =>
        blufiDhNegotiateDataHandler textbookMbedtls result.1
          (dhParamDataMessage (squareParams longRoot)) none 3).map
          (fun result => result.2.outputLen) = .ok (some 300) := by
    decide +kernel
  refine ⟨textbookMbedtls_writesSizes, returned, ?_⟩
  intro always
  obtain ⟨⟨next, output⟩, handled, isOutput⟩ := map_eq_ok_iff.mp returned
  obtain ⟨⟨middle, reply⟩, announced, exchanged⟩ :=
    bind_eq_ok_iff.mp handled
  have fits := always _ middle _
    (dhParamDataMessage (squareParams longRoot)) _ none 3 3 reply
    (dhParamLenMessage_type (squareParams longRoot)) announced
  have tooLong := fits.outputLen next output 300 exchanged isOutput
  exact absurd tooLong (by decide)

end Esp32Source.Blufi
