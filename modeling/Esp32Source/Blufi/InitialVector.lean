import Esp32Source.Blufi.Lifetime
import Esp32Source.Blufi.Structure

/-!
# The initial vector

`blufi_security_init` sets the member `iv` to zero and no function writes to
it, but it is the last member that the arrays of the key exchange can run
over.  A prime of at most 157 bytes leaves its last 15 bytes alone: the secret
of such a prime ends in front of `iv[1]`, and the public key long before.  The
byte `iv[0]` is not used.
-/

namespace Esp32Source.Blufi

open Memory Machine

variable {Dhm Aes Env : Type} {mbedtls : Mbedtls Dhm Aes Env}

/-- The bytes of `iv` behind the first are zero. -/
def ZeroIv (sec : BlufiSecurity Dhm Aes) : Prop :=
  sec.iv.drop 1 = List.replicate 15 0

/-- The parameters that the event brings, when they are accepted, have a prime
of at most 157 bytes. -/
def SparesIv (mbedtls : Mbedtls Dhm Aes Env)
    (history : List (SecurityEvent Env)) (event : SecurityEvent Env) :
    Prop :=
  ∀ message allocated env state sec,
    event = .negotiate message allocated env →
      message.data 0 = secTypeDhParamData →
        securityAfter mbedtls history = .ok state →
          state.security = .ok sec → sec.dhParam ≠ 0 →
            (mbedtls.dhmReadParams env sec.dhm
              (message.params sec.dhParamLen)).1 = 0 →
              mbedtls.sizeP (mbedtls.dhmReadParams env sec.dhm
                (message.params sec.dhParamLen)).2 ≤ 157

/-! ## Writes in front of the vector -/

theorem BlufiSecurity.drop_iv (sec : BlufiSecurity Dhm Aes) :
    sec.iv.drop 1 = sec.raw.window (ivAt + 1) 15 := by
  rw [iv, Buffer.window, Buffer.window, Memory.window, Memory.window,
    List.drop_take, List.drop_drop]

theorem ZeroIv.put {sec stored : BlufiSecurity Dhm Aes} (zero : ZeroIv sec)
    {position : Nat} {source : List UInt8}
    (inFront : position + source.length ≤ ivAt + 1)
    (isStored : sec.put position source = .ok stored) : ZeroIv stored := by
  obtain ⟨raw, isRaw, rest⟩ := bind_eq_ok_iff.mp isStored
  cases rest
  have same : raw.window (ivAt + 1) 15 = sec.raw.window (ivAt + 1) 15 :=
    Buffer.window_store_disjoint isRaw (Or.inr inFront)
  rw [ZeroIv, BlufiSecurity.drop_iv]
  rw [ZeroIv, BlufiSecurity.drop_iv] at zero
  exact same.trans zero

theorem keptByWords_zeroIv :
    KeptByWords (ZeroIv : BlufiSecurity Dhm Aes → Prop) := by
  intro sec stored position number inFront zero isStored
  apply zero.put _ isStored
  rw [length_encode]
  exact Nat.le_succ_of_le inFront

theorem ZeroIv.putShareLen {sec stored : BlufiSecurity Dhm Aes}
    (zero : ZeroIv sec) {length : Option Nat}
    (isStored : sec.putShareLen length = .ok stored) : ZeroIv stored := by
  cases length with
  | none =>
      cases isStored
      exact zero
  | some length =>
      exact keptByWords_zeroIv sec stored shareLenAt length (by decide) zero
        isStored

/-! ## Messages -/

section Messages

variable {state next : SecurityState Dhm Aes}

/-- A vector of zeros, and a prime whose public key ends in front of it. -/
def KeyInFront (mbedtls : Mbedtls Dhm Aes Env)
    (sec : BlufiSecurity Dhm Aes) : Prop :=
  ZeroIv sec ∧ mbedtls.sizeP sec.dhm ≤ 157

theorem keptByWords_keyInFront : KeptByWords (KeyInFront mbedtls) := by
  intro sec stored position number inFront holds isStored
  refine ⟨keptByWords_zeroIv sec stored position number inFront holds.1
    isStored, ?_⟩
  obtain ⟨raw, _, rest⟩ := bind_eq_ok_iff.mp isStored
  cases rest
  exact holds.2

theorem keyInFront_of_makePublic (documented : mbedtls.Documented)
    (has : Has (KeyInFront mbedtls) state) {env : Env} {ret : Int}
    (made : makePublic mbedtls state env = .ok (next, ret)) :
    Has (KeyInFront mbedtls) next := by
  refine has.makePublic ?_ made
  intro sec stored holds isStored
  have short := holds.2
  have outputShort := documented.makePublic_length env sec.dhm
    (mbedtls.sizeP sec.dhm) (mbedtls.sizeP sec.dhm)
  have sameSize := documented.makePublic_sizeP env sec.dhm
    (mbedtls.sizeP sec.dhm) (mbedtls.sizeP sec.dhm)
  have zero : ZeroIv stored := by
    apply holds.1.put _ isStored
    rw [selfPublicKeyAt, ivAt]
    omega
  refine ⟨zero, ?_⟩
  rw [sameSize]
  exact short

theorem zeroIv_of_calcSecret (documented : mbedtls.Documented)
    (has : Has (KeyInFront mbedtls) state) {env : Env}
    (calculated : calcSecret mbedtls state env = .ok next) :
    Has ZeroIv next := by
  refine has.calcSecret ?_ calculated
  intro sec measured stored holds isMeasured isStored
  have short := holds.2
  have outputShort :=
    documented.calcSecret_length env sec.dhm shareKeyBitLen
  have zero : ZeroIv stored := by
    apply (holds.1.putShareLen isMeasured).put _ isStored
    rw [shareKeyAt, ivAt]
    omega
  exact zero

theorem zeroIv_of_hashSecret (documented : mbedtls.Documented)
    (has : Has ZeroIv state) {env : Env} {ret : Int}
    (hashed : hashSecret mbedtls state env = .ok (next, ret)) :
    Has ZeroIv next := by
  refine has.hashSecret ?_ hashed
  intro sec digest stored zero isStored
  have digestShort := documented.md5_length env digest
  apply zero.put _ isStored
  rw [pskAt, ivAt]
  omega

theorem zeroIv_of_setKey (has : Has ZeroIv state)
    (isSet : setKey mbedtls state = .ok next) : Has ZeroIv next := by
  refine has_of_setKey ?_ isSet
  intro found isFound
  obtain ⟨same, isSame, zero⟩ := has
  cases isFound.symm.trans isSame
  exact zero

theorem zeroIv_of_keyExchange (documented : mbedtls.Documented)
    (has : Has (KeyInFront mbedtls) state)
    {env : Env} {dataRead : Nat} {reply : NegotiateReply}
    (exchanged :
      keyExchange mbedtls state env dataRead = .ok (next, reply)) :
    Has ZeroIv next := by
  obtain ⟨published, publicRet, isPublished, way⟩ :=
    keyExchange_cases exchanged
  have publishedHas :=
    keyInFront_of_makePublic documented has isPublished
  rcases way with
    ⟨isNext, _⟩ | ⟨_, shared, hashed, hashRet, isShared, isHashed, way⟩
  · rw [isNext]
    exact publishedHas.imp fun _ holds => holds.1
  · have sharedHas := zeroIv_of_calcSecret documented publishedHas isShared
    have hashedHas := zeroIv_of_hashSecret documented sharedHas isHashed
    rcases way with ⟨isNext, _⟩ | ⟨isKeyed, _⟩
    · rw [isNext]
      exact hashedHas
    · exact zeroIv_of_setKey hashedHas isKeyed

theorem zeroIv_of_dhParamDataCase (documented : mbedtls.Documented)
    (has : Has ZeroIv state) {message : Message} {env : Env}
    {reply : NegotiateReply}
    (short : ∀ sec, state.security = .ok sec → sec.dhParam ≠ 0 →
      (mbedtls.dhmReadParams env sec.dhm
        (message.params sec.dhParamLen)).1 = 0 →
        mbedtls.sizeP (mbedtls.dhmReadParams env sec.dhm
          (message.params sec.dhParamLen)).2 ≤ 157)
    (handled :
      dhParamDataCase mbedtls state message env = .ok (next, reply)) :
    Has ZeroIv next := by
  obtain ⟨sec, isSec, way⟩ := dhParamDataCase_cases handled
  rcases way with
    ⟨_, isNext, _⟩ | ⟨isParam, heap, read, isCopied, isRead, way⟩
  · rw [isNext]
    exact has
  · rcases way with ⟨isNext, _⟩ | ⟨accepted, freed, isFreed, exchanged⟩
    · rw [isNext]
      exact has.readParams (fun _ zero => zero) isCopied isRead
    · have size := short sec isSec isParam accepted
      have readHas : Has (KeyInFront mbedtls) read :=
        has.readParams (fun _ zero => ⟨zero, size⟩) isCopied isRead
      have freedHas :=
        readHas.freeDhParam keptByWords_keyInFront.dhParam isFreed
      exact zeroIv_of_keyExchange documented freedHas exchanged

end Messages

/-! ## Runs -/

/-- The structure, if it is there, has a vector of zeros. -/
def KeepsIv (state : SecurityState Dhm Aes) : Prop :=
  ∀ sec, state.security = .ok sec → ZeroIv sec

theorem Has.keepsIv {state : SecurityState Dhm Aes}
    (has : Has ZeroIv state) : KeepsIv state := by
  intro sec isSec
  obtain ⟨found, isFound, zero⟩ := has
  cases isSec.symm.trans isFound
  exact zero

theorem keepsIv_of_null {state : SecurityState Dhm Aes}
    (isNull : state.blufiSec = 0) : KeepsIv state := by
  intro sec isSec
  have loaded := SecurityState.security_eq_ok_iff.mp isSec
  exact absurd isNull (Heap.load_eq_ok_iff.mp loaded).1

theorem keepsIv_blufiSecurityInit (state : SecurityState Dhm Aes)
    (allocated : Option Nat) :
    KeepsIv (blufiSecurityInit mbedtls state allocated) := by
  rw [blufiSecurityInit]
  rcases state.heap.malloc_cases allocated
      (.security { raw := Buffer.zero 300, dhm := mbedtls.dhmInit,
                   aes := mbedtls.aesInit }) with
    failed | ⟨address, notNull, _, _, succeeded⟩
  · rw [failed]
    exact keepsIv_of_null rfl
  · rw [succeeded]
    apply Has.keepsIv
    refine ⟨_, SecurityState.security_of_live notNull
      (Function.update_self _ _ _), ?_⟩
    rfl

theorem KeepsIv.blufiSecurityDeinit {state next : SecurityState Dhm Aes}
    (keeps : KeepsIv state)
    (left : blufiSecurityDeinit state = .ok next) : KeepsIv next := by
  rw [Blufi.blufiSecurityDeinit] at left
  by_cases isNull : state.blufiSec = 0
  · rw [if_pos isNull] at left
    cases left
    exact keeps
  · rw [if_neg isNull] at left
    obtain ⟨released, _, rest⟩ := bind_eq_ok_iff.mp left
    obtain ⟨cleared, _, rest⟩ := bind_eq_ok_iff.mp rest
    obtain ⟨heap, _, rest⟩ := bind_eq_ok_iff.mp rest
    cases rest
    exact keepsIv_of_null rfl

/-- A message that is handled finds the structure, unless it is of another
type. -/
theorem KeepsIv.negotiate (documented : mbedtls.Documented)
    {state next : SecurityState Dhm Aes} {message : Message}
    {allocated : Option Nat} {env : Env} {reply : NegotiateReply}
    (keeps : KeepsIv state)
    (short : message.data 0 = secTypeDhParamData →
      ∀ sec, state.security = .ok sec → sec.dhParam ≠ 0 →
        (mbedtls.dhmReadParams env sec.dhm
          (message.params sec.dhParamLen)).1 = 0 →
          mbedtls.sizeP (mbedtls.dhmReadParams env sec.dhm
            (message.params sec.dhParamLen)).2 ≤ 157)
    (negotiated :
      blufiDhNegotiateDataHandler mbedtls state message allocated env =
        .ok (next, reply)) :
    KeepsIv next := by
  have here {sec : BlufiSecurity Dhm Aes}
      (isSec : state.security = .ok sec) : Has ZeroIv state :=
    ⟨sec, isSec, keeps sec isSec⟩
  rcases handler_cases negotiated with ⟨_, isNext, _⟩ | ⟨_, way⟩
  · rw [isNext]
    exact keeps
  · rcases way with ⟨_, announced⟩ | ⟨isData, brought⟩ | ⟨isNext, _⟩
    · obtain ⟨changed, isChanged, _⟩ := bind_eq_ok_iff.mp announced
      obtain ⟨sec, _, isSec, _⟩ := SecurityState.modify_eq_ok isChanged
      apply Has.keepsIv
      exact (here isSec).dhParamLenCase keptByWords_zeroIv announced
    · obtain ⟨sec, isSec, _⟩ := bind_eq_ok_iff.mp brought
      apply Has.keepsIv
      exact zeroIv_of_dhParamDataCase documented (here isSec)
        (short isData) brought
    · rw [isNext]
      exact keeps

theorem KeepsIv.handle (documented : mbedtls.Documented)
    {history : List (SecurityEvent Env)} {event : SecurityEvent Env}
    {state next : SecurityState Dhm Aes} {reply : SecurityReply}
    (keeps : KeepsIv state) (spares : SparesIv mbedtls history event)
    (reached : securityAfter mbedtls history = .ok state)
    (handled : state.handle mbedtls event = .ok (next, reply)) :
    KeepsIv next := by
  cases event with
  | bleConnect allocated =>
      cases handled
      exact keepsIv_blufiSecurityInit state allocated
  | bleDisconnect =>
      obtain ⟨left, isLeft, rest⟩ := bind_eq_ok_iff.mp handled
      cases rest
      exact keeps.blufiSecurityDeinit isLeft
  | negotiate message allocated env =>
      obtain ⟨⟨negotiated, answer⟩, isNegotiated, rest⟩ :=
        bind_eq_ok_iff.mp handled
      cases rest
      apply keeps.negotiate documented _ isNegotiated
      intro isData sec isSec
      exact spares message allocated env state sec rfl isData reached isSec
  | crypt mode iv8 cryptData =>
      obtain ⟨result, _, rest⟩ := bind_eq_ok_iff.mp handled
      cases rest
      exact keeps

/-- The vector stays zero in every run whose accepted primes have at most 157
bytes. -/
theorem keepsIv_of_spares (documented : mbedtls.Documented)
    {history : List (SecurityEvent Env)} {state : SecurityState Dhm Aes}
    (spares : AtEveryStep (SparesIv mbedtls) history)
    (reached : securityAfter mbedtls history = .ok state) :
    KeepsIv state := by
  refine after_induction
    (motive := fun front middle =>
      AtEveryStep (SparesIv mbedtls) front → KeepsIv middle)
    ?_ ?_ reached spares
  · intro _
    exact keepsIv_of_null rfl
  · intro front event middle next reply reachedMiddle earlier handled steps
    obtain ⟨frontSpares, eventSpares⟩ := atEveryStep_concat_iff.mp steps
    have keeps := earlier frontSpares
    exact keeps.handle documented eventSpares reachedMiddle handled

end Esp32Source.Blufi
