import Esp32Source.Blufi.Packets
import Esp32Source.Blufi.PrimeSize

/-!
# The key of the two ends

The phone sends a prime, a generator and a power of it, and gets a power of
the generator back.  A negotiation that returns this answer has set the key
that the phone computes from it, and from then on either end reads what the
other encrypts.

The answer is not a copy: it is read from `self_public_key` after the secret,
its length and the digest were written to the members behind it.
-/

namespace Esp32Source.Blufi

open Memory Machine Cipher

variable {Dhm Aes Env : Type} {mbedtls : Mbedtls Dhm Aes Env}

/-! ## Numbers as bytes -/

/-- The numbers `P`, `G` and `GY` of parameters. -/
def dhNumbers (params : List UInt8) : Option (Nat × Nat × Nat) := do
  let (p, behindP) ← dhmReadBignum params
  let (g, behindG) ← dhmReadBignum behindP
  let (gy, _) ← dhmReadBignum behindG
  return (p, g, gy)

theorem lt_pow_mpiSize (number : Nat) : number < 256 ^ mpiSize number := by
  by_cases isZero : number = 0
  · rw [isZero]
    decide
  · have bits : number.log2 + 1 ≤ 8 * (number.log2 / 8 + 1) := by
      omega
    rw [mpiSize, if_neg isZero]
    calc number < 2 ^ (number.log2 + 1) := Nat.lt_log2_self
      _ ≤ 2 ^ (8 * (number.log2 / 8 + 1)) :=
          Nat.pow_le_pow_right (by decide) bits
      _ = 256 ^ (number.log2 / 8 + 1) := by
          rw [Nat.pow_mul]

theorem mpiReadBinary_mpiWriteBinary {number length : Nat}
    (fits : number < 256 ^ length) :
    mpiReadBinary (mpiWriteBinary number length) = number := by
  rw [mpiReadBinary, mpiWriteBinary, List.reverse_reverse,
    decode_encode fits]

/-- A number of less than 65536 bytes is read back. -/
theorem dhmReadBignum_bignum {number : Nat}
    (fits : mpiSize number < 65536) (rest : List UInt8) :
    dhmReadBignum (bignum number ++ rest) = some (number, rest) := by
  have length := length_mpiWriteBinary number (mpiSize number)
  have isLength :
      (UInt8.ofNat (mpiSize number / 256)).toNat * 256 +
          (UInt8.ofNat (mpiSize number)).toNat = mpiSize number := by
    rw [UInt8.toNat_ofNat', UInt8.toNat_ofNat']
    omega
  have shape : bignum number ++ rest =
      UInt8.ofNat (mpiSize number / 256) ::
        UInt8.ofNat (mpiSize number) ::
          (mpiWriteBinary number (mpiSize number) ++ rest) :=
    rfl
  have inside : mpiSize number ≤
      (mpiWriteBinary number (mpiSize number) ++ rest).length := by
    rw [List.length_append, length]
    exact Nat.le_add_right _ _
  rw [shape, dhmReadBignum]
  simp only [isLength, if_pos inside]
  rw [List.take_left' length, List.drop_left' length,
    mpiReadBinary_mpiWriteBinary (lt_pow_mpiSize number)]

theorem dhNumbers_dhParams {p g gy : Nat} (fitsP : mpiSize p < 65536)
    (fitsG : mpiSize g < 65536) (fitsGy : mpiSize gy < 65536) :
    dhNumbers (dhParams p g gy) = some (p, g, gy) := by
  have behindGy := dhmReadBignum_bignum fitsGy []
  rw [List.append_nil] at behindGy
  rw [dhNumbers, dhParams, List.append_assoc]
  simp only [bind, Option.bind, dhmReadBignum_bignum fitsP,
    dhmReadBignum_bignum fitsG, behindGy]
  rfl

/-! ## The phone -/

/-- The secret of a peer with the exponent `y`, without leading zeros. -/
def peerSecret (p : Nat) (answer : List UInt8) (y : Nat) : List UInt8 :=
  let k := mpiReadBinary answer ^ y % p
  mpiWriteBinary k (mpiSize k)

/-- Whoever has sent the parameters and knows an exponent of `GY` computes the
key from the answer. -/
def AgreesOn (mbedtls : Mbedtls Dhm Aes Env)
    (md5 : List UInt8 → List UInt8) (params answer : List UInt8)
    (aes : Aes) : Prop :=
  ∀ p g y, dhNumbers params = some (p, g, g ^ y % p) →
    answer.length = mpiSize p ∧
      ∃ former, aes = mbedtls.aesSetkeyEnc former
        (md5 (peerSecret p answer y)) 128

/-! ## The library -/

/-- What a call of `mbedtls_dhm_make_public` leaves when it returns 0. -/
structure PublishesKey (before after : DhContext) (olen : Nat)
    (output : List UInt8) : Prop where
  context : ∃ x,
    after = { before with x, gx := before.g ^ x % before.p }
  inRange : dhmCheckRange after.gx after.p = true
  output : output = mpiWriteBinary after.gx olen

/-- The functions compute with the numbers that `view` finds in a context. -/
structure Mbedtls.ComputesDh (mbedtls : Mbedtls Dhm Aes Env)
    (view : Dhm → DhContext) : Prop where
  sizeP : ∀ dhm, mbedtls.sizeP dhm = mpiSize (view dhm).p
  readParams : ∀ env dhm bytes,
    (mbedtls.dhmReadParams env dhm bytes).1 = 0 →
      let context := view (mbedtls.dhmReadParams env dhm bytes).2
      dhNumbers bytes = some (context.p, context.g, context.gy)
  makePublic : ∀ env dhm xSize olen,
    let made := mbedtls.dhmMakePublic env dhm xSize olen
    made.ret = 0 → PublishesKey (view dhm) (view made.dhm) olen made.output
  calcSecret : ∀ env dhm outputSize,
    let secret := mbedtls.dhmCalcSecret env dhm outputSize
    secret.ret = 0 →
      let k := (view dhm).gy ^ (view dhm).x % (view dhm).p
      view secret.dhm = { view dhm with k } ∧
        secret.output = mpiWriteBinary k (mpiSize k) ∧
        secret.olen = some (mpiSize k)

/-- A digest that is computed is the one of the function. -/
structure Mbedtls.Hashes (mbedtls : Mbedtls Dhm Aes Env)
    (md5 : List UInt8 → List UInt8) : Prop where
  digest : ∀ env input,
    (mbedtls.md5 env input).1 = 0 → (mbedtls.md5 env input).2 = md5 input
  length : ∀ input, (md5 input).length = 16

/-! ## The stages of an exchange -/

section Stages

variable {state next : SecurityState Dhm Aes} {env : Env}
  {sec : BlufiSecurity Dhm Aes}

theorem BlufiSecurity.put_eq_ok {stored : BlufiSecurity Dhm Aes}
    {position : Nat} {source : List UInt8}
    (isStored : sec.put position source = .ok stored) :
    stored.dhm = sec.dhm ∧
      stored.raw.window position source.length = source ∧
      ∀ start length,
        start + length ≤ position ∨ position + source.length ≤ start →
          stored.raw.window start length = sec.raw.window start length := by
  obtain ⟨raw, isRaw, rest⟩ := bind_eq_ok_iff.mp isStored
  cases rest
  exact ⟨rfl, Buffer.window_store_self isRaw,
    fun start length => Buffer.window_store_disjoint isRaw⟩

/-- The context and the answer behind a call of `mbedtls_dhm_make_public`. -/
def Published (view : Dhm → DhContext) (before : DhContext)
    (sec : BlufiSecurity Dhm Aes) : Prop :=
  PublishesKey before (view sec.dhm) (mpiSize before.p)
    (sec.raw.window selfPublicKeyAt (mpiSize before.p))

theorem published_of_makePublic {view : Dhm → DhContext}
    (computes : mbedtls.ComputesDh view)
    (isSec : state.security = .ok sec)
    (made : makePublic mbedtls state env = .ok (next, 0)) :
    Has (Published view (view sec.dhm)) next := by
  have isRet := (makePublic_eq_ok isSec made).1
  have has : Has (fun found => found = sec) state := ⟨sec, isSec, rfl⟩
  refine has.makePublic ?_ made
  intro found stored isFound isStored
  cases isFound
  have publishes := computes.makePublic env sec.dhm (mbedtls.sizeP sec.dhm)
    (mbedtls.sizeP sec.dhm) isRet.symm
  obtain ⟨_, written, _⟩ := BlufiSecurity.put_eq_ok isStored
  rw [publishes.output, length_mpiWriteBinary] at written
  refine ⟨publishes.context, publishes.inRange, ?_⟩
  dsimp only
  rw [← computes.sizeP, written]

/-- The answer to parameters under an exponent. -/
structure Answered (view : Dhm → DhContext) (before : DhContext)
    (x : Nat) (sec : BlufiSecurity Dhm Aes) : Prop where
  sameP : (view sec.dhm).p = before.p
  answer : sec.raw.window selfPublicKeyAt (mpiSize before.p) =
    mpiWriteBinary (before.g ^ x % before.p) (mpiSize before.p)

/-- A write behind `self_public_key` leaves the answer. -/
theorem Answered.put {view : Dhm → DhContext} {before : DhContext}
    {x : Nat} {stored : BlufiSecurity Dhm Aes} {position : Nat}
    {source : List UInt8} (answered : Answered view before x sec)
    (behind : selfPublicKeyAt + mpiSize before.p ≤ position)
    (isStored : sec.put position source = .ok stored) :
    Answered view before x stored := by
  obtain ⟨sameDhm, _, elsewhere⟩ := BlufiSecurity.put_eq_ok isStored
  refine ⟨?_, ?_⟩
  · rw [sameDhm]
    exact answered.sameP
  · rw [elsewhere _ _ (Or.inl behind)]
    exact answered.answer

/-- The secret that the exponent leads to. -/
def secretNumber (context : DhContext) (x : Nat) : Nat :=
  context.gy ^ x % context.p

/-- The answer, and the secret with its length. -/
structure Shared (view : Dhm → DhContext) (before : DhContext)
    (x : Nat) (sec : BlufiSecurity Dhm Aes) : Prop
    extends Answered view before x sec where
  shareLen : sec.shareLen = mpiSize (secretNumber before x)
  shareKey :
    sec.raw.window shareKeyAt (mpiSize (secretNumber before x)) =
      mpiWriteBinary (secretNumber before x)
        (mpiSize (secretNumber before x))

theorem mpiSize_secretNumber {context : DhContext}
    (positive : 0 < context.p) (x : Nat) :
    mpiSize (secretNumber context x) ≤ mpiSize context.p :=
  mpiSize_mono (Nat.le_of_lt (Nat.mod_lt _ positive))

theorem shared_of_calcSecret {view : Dhm → DhContext}
    {before : DhContext} (computes : mbedtls.ComputesDh view)
    (short : mpiSize before.p ≤ 128) (positive : 0 < before.p)
    (isSec : state.security = .ok sec)
    (published : Published view before sec)
    (isRet : (secretOf mbedtls env sec.dhm).ret = 0)
    (calculated : calcSecret mbedtls state env = .ok next) :
    ∃ x, Has (Shared view before x) next := by
  obtain ⟨x, isContext⟩ := published.context
  refine ⟨x, ?_⟩
  have has : Has (fun found => found = sec) state := ⟨sec, isSec, rfl⟩
  refine has.calcSecret ?_ calculated
  intro found measured stored isFound isMeasured isStored
  cases isFound
  obtain ⟨isView, isOutput, isOlen⟩ :=
    computes.calcSecret env sec.dhm shareKeyBitLen isRet
  have isNumber : (view sec.dhm).gy ^ (view sec.dhm).x %
      (view sec.dhm).p = secretNumber before x := by
    rw [isContext]
    rfl
  rw [isNumber] at isView isOutput isOlen
  rw [isOutput] at isStored
  rw [isOlen] at isMeasured
  have sameP : (view sec.dhm).p = before.p := by
    rw [isContext]
  have isAnswer := published.output
  rw [isContext] at isAnswer
  have answered : Answered view before x sec := ⟨sameP, isAnswer⟩
  have measuredAnswer := answered.put (by
    rw [selfPublicKeyAt, shareLenAt]
    omega) isMeasured
  have storedAnswer := measuredAnswer.put (by
    rw [selfPublicKeyAt, shareKeyAt]
    omega) isStored
  obtain ⟨_, isLength, _⟩ := BlufiSecurity.put_eq_ok isMeasured
  obtain ⟨_, isKey, behind⟩ := BlufiSecurity.put_eq_ok isStored
  rw [length_encode] at isLength
  rw [length_mpiWriteBinary] at isKey behind
  have small := mpiSize_secretNumber positive x
  refine ⟨⟨?_, storedAnswer.answer⟩, ?_, isKey⟩
  · rw [isView]
    exact sameP
  · have inFront :
        shareKeyAt + mpiSize (secretNumber before x) ≤ shareLenAt := by
      rw [shareKeyAt, shareLenAt]
      omega
    rw [BlufiSecurity.shareLen, behind shareLenAt 4 (Or.inr inFront),
      isLength]
    exact decode_encode (by omega)

/-- The answer, and the digest of the secret. -/
structure Hashed (view : Dhm → DhContext) (md5 : List UInt8 → List UInt8)
    (before : DhContext) (x : Nat) (sec : BlufiSecurity Dhm Aes) : Prop
    extends Answered view before x sec where
  psk : sec.psk = md5 (mpiWriteBinary (secretNumber before x)
    (mpiSize (secretNumber before x)))

theorem hashed_of_hashSecret {view : Dhm → DhContext}
    {md5 : List UInt8 → List UInt8} {before : DhContext} {x : Nat}
    (hashes : mbedtls.Hashes md5) (short : mpiSize before.p ≤ 128)
    (positive : 0 < before.p) (has : Has (Shared view before x) state)
    (hashed : hashSecret mbedtls state env = .ok (next, 0)) :
    Has (Hashed view md5 before x) next := by
  obtain ⟨sec, isSec, holds⟩ := has
  obtain ⟨same, isSame, rest⟩ := bind_eq_ok_iff.mp hashed
  cases isSec.symm.trans isSame
  obtain ⟨shared, isShared, rest⟩ := bind_eq_ok_iff.mp rest
  obtain ⟨stored, isStored, rest⟩ := bind_eq_ok_iff.mp rest
  injection rest with rest
  injection rest with isNext isRet
  cases isNext
  have inside : shareKeyAt + mpiSize (secretNumber before x) ≤ 300 := by
    have small := mpiSize_secretNumber positive x
    rw [shareKeyAt]
    omega
  rw [holds.shareLen, Buffer.load_of_fits _ _ _ inside, holds.shareKey]
    at isShared
  injection isShared with isShared
  have isDigest := hashes.digest env shared isRet
  rw [isDigest, ← isShared] at isStored
  have found : Has (fun found => found = sec) state := ⟨sec, isSec, rfl⟩
  refine found.modify (fun _ isSec => isSec) ?_ isStored
  intro old written isOld isWritten
  cases isOld
  have answered := holds.toAnswered.put (by
    rw [selfPublicKeyAt, pskAt]
    omega) isWritten
  obtain ⟨_, isPsk, _⟩ := BlufiSecurity.put_eq_ok isWritten
  rw [hashes.length] at isPsk
  exact ⟨answered, isPsk⟩

/-- The peer's secret is the one computed here: both raise `G` to the product
of the exponents. -/
theorem peerSecret_eq {context : DhContext} {x y : Nat}
    (positive : 0 < context.p)
    (isGy : context.gy = context.g ^ y % context.p) :
    peerSecret context.p
        (mpiWriteBinary (context.g ^ x % context.p) (mpiSize context.p)) y =
      mpiWriteBinary (secretNumber context x)
        (mpiSize (secretNumber context x)) := by
  have below : context.g ^ x % context.p < 256 ^ mpiSize context.p :=
    Nat.lt_trans (Nat.mod_lt _ positive) (lt_pow_mpiSize context.p)
  have sameNumber :
      (context.g ^ x % context.p) ^ y % context.p =
        secretNumber context x := by
    rw [secretNumber, isGy, ← Nat.pow_mod, ← Nat.pow_mod, ← Nat.pow_mul,
      ← Nat.pow_mul, Nat.mul_comm]
  rw [peerSecret, mpiReadBinary_mpiWriteBinary below, sameNumber]

/-- An exchange that returns an output has passed every check. -/
theorem keyExchange_of_output {dataRead length : Nat}
    {reply : NegotiateReply}
    (exchanged :
      keyExchange mbedtls state env dataRead = .ok (next, reply))
    (isOutput : reply.outputLen = some length) :
    ∃ published shared hashed sec,
      makePublic mbedtls state env = .ok (published, 0) ∧
        calcSecret mbedtls published env = .ok shared ∧
        hashSecret mbedtls shared env = .ok (hashed, 0) ∧
        setKey mbedtls hashed = .ok next ∧
        next.security = .ok sec ∧ length = mbedtls.sizeP sec.dhm := by
  obtain ⟨⟨published, publicRet⟩, isPublished, rest⟩ :=
    bind_eq_ok_iff.mp exchanged
  dsimp only at rest
  by_cases publicFails : publicRet ≠ 0
  · rw [if_pos publicFails] at rest
    cases rest
    cases isOutput
  · rw [if_neg publicFails] at rest
    obtain ⟨shared, isShared, rest⟩ := bind_eq_ok_iff.mp rest
    obtain ⟨⟨hashed, hashRet⟩, isHashed, rest⟩ := bind_eq_ok_iff.mp rest
    dsimp only at rest
    by_cases hashFails : hashRet ≠ 0
    · rw [if_pos hashFails] at rest
      cases rest
      cases isOutput
    · rw [if_neg hashFails] at rest
      obtain ⟨keyed, isKeyed, rest⟩ := bind_eq_ok_iff.mp rest
      obtain ⟨sec, isSec, rest⟩ := bind_eq_ok_iff.mp rest
      cases rest
      cases isOutput
      rw [not_not.mp publicFails] at isPublished
      rw [not_not.mp hashFails] at isHashed
      exact ⟨published, shared, hashed, sec, isPublished, isShared,
        isHashed, isKeyed, isSec, rfl⟩

/-- The answer, and a key from the digest of the secret. -/
theorem answered_of_setKey {view : Dhm → DhContext}
    {md5 : List UInt8 → List UInt8} {before : DhContext} {x : Nat}
    (has : Has (Hashed view md5 before x) state)
    (isSet : setKey mbedtls state = .ok next) :
    Has (fun sec => Answered view before x sec ∧
      ∃ former, sec.aes = mbedtls.aesSetkeyEnc former
        (md5 (mpiWriteBinary (secretNumber before x)
          (mpiSize (secretNumber before x)))) 128) next := by
  obtain ⟨sec, isSec, holds⟩ := has
  refine has_of_setKey ?_ isSet
  intro found isFound
  cases isSec.symm.trans isFound
  refine ⟨⟨holds.sameP, holds.answer⟩, sec.aes, ?_⟩
  rw [← holds.psk]

/-- An exchange with a short prime and a computed secret. -/
theorem answered_of_keyExchange {view : Dhm → DhContext}
    {md5 : List UInt8 → List UInt8} {dataRead length : Nat}
    {reply : NegotiateReply} (computes : mbedtls.ComputesDh view)
    (hashes : mbedtls.Hashes md5) (isSec : state.security = .ok sec)
    (accepts : (publicKeyOf mbedtls env sec.dhm).ret = 0 →
      mbedtls.sizeP sec.dhm ≤ 128 ∧
        (secretOf mbedtls env
          (publicKeyOf mbedtls env sec.dhm).dhm).ret = 0)
    (exchanged :
      keyExchange mbedtls state env dataRead = .ok (next, reply))
    (isOutput : reply.outputLen = some length) :
    length = mpiSize (view sec.dhm).p ∧ 0 < (view sec.dhm).p ∧
      ∃ x, Has (fun keyed => Answered view (view sec.dhm) x keyed ∧
        ∃ former, keyed.aes = mbedtls.aesSetkeyEnc former
          (md5 (mpiWriteBinary (secretNumber (view sec.dhm) x)
            (mpiSize (secretNumber (view sec.dhm) x)))) 128) next := by
  obtain ⟨published, shared, hashed, keyed, isPublished, isShared, isHashed,
    isKeyed, isNext, isLength⟩ := keyExchange_of_output exchanged isOutput
  obtain ⟨isRet, after, isAfter, sameDhm⟩ :=
    makePublic_eq_ok isSec isPublished
  obtain ⟨short, secretRet⟩ := accepts isRet.symm
  rw [← sameDhm] at secretRet
  rw [computes.sizeP] at short
  obtain ⟨same, isSame, publishes⟩ :=
    published_of_makePublic computes isSec isPublished
  cases isAfter.symm.trans isSame
  have positive : 0 < (view sec.dhm).p := by
    obtain ⟨x, isContext⟩ := publishes.context
    have inRange := publishes.inRange
    rw [isContext, dhmCheckRange, decide_eq_true_eq] at inRange
    exact Nat.lt_of_lt_of_le (Nat.succ_pos _) inRange.2
  obtain ⟨x, sharedHas⟩ := shared_of_calcSecret computes short positive
    isAfter publishes secretRet isShared
  have hashedHas := hashed_of_hashSecret hashes short positive sharedHas
    isHashed
  obtain ⟨found, isFound, answered, isAes⟩ :=
    answered_of_setKey hashedHas isKeyed
  cases isNext.symm.trans isFound
  refine ⟨?_, positive, x, keyed, isNext, answered, isAes⟩
  rw [isLength, computes.sizeP, answered.sameP]

end Stages

/-! ## Agreement -/

/-- A key exchange that starts as it should and returns an answer sets the key
that the sender of the parameters computes from the answer. -/
theorem StartsExchange.agrees {view : Dhm → DhContext}
    {md5 : List UInt8 → List UInt8} {state start next : SecurityState Dhm Aes}
    {received : BlufiSecurity Dhm Aes} {message : Message} {env : Env}
    {reply : NegotiateReply} {dataRead length : Nat}
    (computes : mbedtls.ComputesDh view) (hashes : mbedtls.Hashes md5)
    (starts : StartsExchange mbedtls state message env received start)
    (accepts : AcceptsShortPrime mbedtls state message env)
    (exchanged : keyExchange mbedtls start env dataRead = .ok (next, reply))
    (isOutput : reply.outputLen = some length) :
    ∃ sec, next.security = .ok sec ∧
      AgreesOn mbedtls md5 (message.params received.dhParamLen)
        (sec.raw.window selfPublicKeyAt length) sec.aes := by
  obtain ⟨_, _, isMade, _⟩ := keyExchange_cases exchanged
  obtain ⟨found, isFound, _⟩ := bind_eq_ok_iff.mp isMade
  have sameDhm := starts.dhm_eq isFound
  obtain ⟨isLength, positive, x, sec, isSec, answered, former, isAes⟩ :=
    answered_of_keyExchange computes hashes isFound (by
      rw [sameDhm]
      exact accepts received starts.notNull starts.isData starts.isSec
        starts.hasParam starts.accepted) exchanged isOutput
  have numbers := computes.readParams env received.dhm
    (message.params received.dhParamLen) starts.accepted
  rw [readParams] at sameDhm
  rw [← sameDhm] at numbers
  refine ⟨sec, isSec, ?_⟩
  intro p g y isSent
  rw [numbers] at isSent
  injection isSent with isSent
  injection isSent with isP isSent
  injection isSent with isG isGy
  rw [← isP, ← isG] at isGy
  rw [isLength, answered.answer, ← isP, length_mpiWriteBinary]
  refine ⟨rfl, former, ?_⟩
  rw [peerSecret_eq positive isGy]
  exact isAes

/-- Under a key and with a vector of zeros, packets are fixed by the key. -/
theorem packetsFixed_of_key {block : AesBlock → AesBlock → AesBlock}
    (cfb : mbedtls.CryptsCfb128 block) {state : SecurityState Dhm Aes}
    {sec : BlufiSecurity Dhm Aes} (isSec : state.security = .ok sec)
    (zero : ZeroIv sec) {former : Aes} {key : AesBlock}
    (isSet : sec.aes = mbedtls.aesSetkeyEnc former key.toList 128) :
    PacketsFixed mbedtls state (packetText (block key)) where
  calls := crypts_eq_ok (handle_crypt cfb isSec isSet zero)
  length mode _ cryptData := length_cfb128 _ mode _ cryptData
  roundTrip _ cryptData := cfb128_decrypt_encrypt _ _ cryptData

/-- A message that is answered had a short prime, so that `iv` stays zero. -/
theorem KeepsIv.of_answered (documented : mbedtls.Documented)
    {state next : SecurityState Dhm Aes} {message : Message}
    {allocated : Option Nat} {env : Env} {reply : NegotiateReply}
    {length : Nat} (keeps : KeepsIv state)
    (accepts : AcceptsShortPrime mbedtls state message env)
    (handled :
      blufiDhNegotiateDataHandler mbedtls state message allocated env =
        .ok (next, reply))
    (isOutput : reply.outputLen = some length) : KeepsIv next := by
  refine keeps.negotiate documented ?_ handled
  intro isData sec isSec hasParam accepted
  obtain ⟨same, start, starts, exchanged⟩ :=
    starts_of_outputLen handled isOutput
  cases isSec.symm.trans starts.isSec
  obtain ⟨_, _, _, _, isMade, _⟩ := keyExchange_of_output exchanged isOutput
  obtain ⟨found, isFound, _⟩ := bind_eq_ok_iff.mp isMade
  have isRet := (makePublic_eq_ok isFound isMade).1
  rw [starts.dhm_eq isFound] at isRet
  have short := accepts sec starts.notNull isData isSec hasParam accepted
    isRet.symm
  exact Nat.le_trans short.1 (by decide)

theorem dhNumbers_of_textbookReadParams {context : DhContext}
    {bytes : List UInt8} (accepted : (textbookReadParams context bytes).1 = 0) :
    dhNumbers bytes =
      some ((textbookReadParams context bytes).2.p,
        (textbookReadParams context bytes).2.g,
        (textbookReadParams context bytes).2.gy) := by
  simp only [textbookReadParams] at accepted ⊢
  simp only [dhNumbers, bind, Option.bind]
  cases isP : dhmReadBignum bytes with
  | none =>
      rw [isP] at accepted
      cases accepted
  | some numberP =>
      rw [isP] at accepted
      dsimp only at accepted ⊢
      cases isG : dhmReadBignum numberP.2 with
      | none =>
          rw [isG] at accepted
          cases accepted
      | some numberG =>
          rw [isG] at accepted
          dsimp only at accepted ⊢
          cases isGy : dhmReadBignum numberG.2 with
          | none =>
              rw [isGy] at accepted
              cases accepted
          | some numberGy =>
              dsimp only
              split <;> rfl

theorem publishesKey_of_textbookMakePublic {x olen : Nat}
    {context : DhContext}
    (made : (textbookMakePublic x context olen).ret = 0) :
    PublishesKey context (textbookMakePublic x context olen).dhm olen
      (textbookMakePublic x context olen).output := by
  rw [textbookMakePublic, mpiExpMod] at made ⊢
  by_cases isOdd : context.p % 2 = 1
  · rw [if_pos isOdd] at made ⊢
    dsimp only at made ⊢
    split at made
    · rename_i inRange
      rw [if_pos inRange]
      exact ⟨⟨x, rfl⟩, inRange, rfl⟩
    · cases made
  · rw [if_neg isOdd] at made
    cases made

theorem textbookCalcSecret_eq {context : DhContext} {outputSize : Nat}
    (computed : (textbookCalcSecret context outputSize).ret = 0) :
    let k := context.gy ^ context.x % context.p
    (textbookCalcSecret context outputSize).dhm = { context with k } ∧
      (textbookCalcSecret context outputSize).output =
        mpiWriteBinary k (mpiSize k) ∧
      (textbookCalcSecret context outputSize).olen = some (mpiSize k) := by
  simp only [textbookCalcSecret, mpiExpMod] at computed ⊢
  split at computed
  · cases computed
  · rename_i fits
    rw [if_neg fits]
    split at computed
    · cases computed
    · rename_i inRange
      rw [if_neg inRange]
      by_cases isOdd : context.p % 2 = 1
      · rw [if_pos isOdd]
        exact ⟨rfl, rfl, rfl⟩
      · rw [if_neg isOdd] at computed
        cases computed

theorem aesMbedtls_computesDh : aesMbedtls.ComputesDh id where
  sizeP _ := rfl
  readParams _ _ _ accepted := dhNumbers_of_textbookReadParams accepted
  makePublic _ _ _ _ made := publishesKey_of_textbookMakePublic made
  calcSecret _ _ _ computed := textbookCalcSecret_eq computed

/-- A digest of which only the value at the empty string is known. -/
def emptyDigest (input : List UInt8) : List UInt8 :=
  if input = [] then md5Empty else List.replicate 16 0

theorem aesMbedtls_hashes : aesMbedtls.Hashes emptyDigest where
  digest _ input computed := by
    by_cases isEmpty : input = []
    · rw [isEmpty]
      rfl
    · simp [aesMbedtls, textbookMbedtls, isEmpty] at computed
  length input := by
    rw [emptyDigest]
    split
    · rfl
    · exact List.length_replicate

/-- The phone's exponent and the one of the device are 2, so that both ends
get the secret 0. -/
def smallParams : List UInt8 := dhParams 27 6 (6 ^ 2 % 27)

/-- The phone connects and announces the parameters. -/
def announcement : List (SecurityEvent Nat) :=
  [.bleConnect (some 0x3ffb1000),
    .negotiate (dhParamLenMessage smallParams) (some 0x3ffb2000) 2]

theorem announcement_spares :
    AtEveryStep (SparesIv aesMbedtls) announcement := by
  simp only [announcement, atEveryStep_cons_iff]
  refine ⟨?_, ?_, atEveryStep_nil _⟩
  · intro message allocated env state sec isMessage
    cases isMessage
  · intro message allocated env state sec isMessage isData
    cases isMessage
    rw [dhParamLenMessage, Message.ofBytes_data] at isData
    cases isData

/-- What the message with the parameters finds and returns. -/
theorem smallParams_answered :
    ∃ state received next reply,
      securityAfter aesMbedtls announcement = .ok state ∧
        state.security = .ok received ∧
        (dhParamDataMessage smallParams).params received.dhParamLen =
          smallParams ∧
        AcceptsShortPrime aesMbedtls state
          (dhParamDataMessage smallParams) 2 ∧
        blufiDhNegotiateDataHandler aesMbedtls state
            (dhParamDataMessage smallParams) none 2 = .ok (next, reply) ∧
        reply.outputLen = some 1 := by
  have found :
      (securityAfter aesMbedtls announcement >>= fun state =>
        state.security >>= fun received =>
          (blufiDhNegotiateDataHandler aesMbedtls state
            (dhParamDataMessage smallParams) none 2).map fun handled =>
              ((dhParamDataMessage smallParams).params received.dhParamLen,
                (readParams aesMbedtls received
                  (dhParamDataMessage smallParams) 2).2,
                handled.2.outputLen)) =
        .ok (smallParams, { p := 27, g := 6, gy := 9 }, some 1) := by
    decide +kernel
  obtain ⟨state, reached, rest⟩ := bind_eq_ok_iff.mp found
  obtain ⟨received, isReceived, rest⟩ := bind_eq_ok_iff.mp rest
  obtain ⟨⟨next, reply⟩, handled, isAnswer⟩ := map_eq_ok_iff.mp rest
  injection isAnswer with isSent isAnswer
  injection isAnswer with isRead isOutput
  refine ⟨state, received, next, reply, reached, isReceived, isSent, ?_,
    handled, isOutput⟩
  intro sec _ _ isSec _ _ _
  cases isReceived.symm.trans isSec
  rw [isRead]
  exact ⟨by decide, by decide⟩

end Esp32Source.Blufi
