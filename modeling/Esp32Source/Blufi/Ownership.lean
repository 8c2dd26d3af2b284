import Esp32Source.Blufi.Blocks

/-!
# Who owns the blocks

While `blufi_sec` is not null it is the only live `struct blufi_security`, and
the block that it points to with `dh_param` is the only other live block.
Every negotiation message keeps this as long as what mbedTLS writes stays
inside the arrays of 128 bytes, that is, as long as the prime of every
accepted parameter set has at most 128 bytes.
-/

namespace Esp32Source.Blufi

open Memory Machine

variable {Dhm Aes Env : Type}

/-! ## One live structure -/

/-- `blufi_sec` points to `sec`, the only live structure, and `param` is the
content of the only other live block, to which `dh_param` points. -/
structure Holds (state : SecurityState Dhm Aes)
    (sec : BlufiSecurity Dhm Aes) (param : Option (List UInt8)) :
    Prop where
  notNull : state.blufiSec ≠ 0
  live : state.heap.block state.blufiSec = some (.security sec)
  shareLen : sec.shareLen ≤ 128
  null : sec.dhParam = 0 ↔ param = none
  apart : sec.dhParam ≠ state.blufiSec
  others : ∀ address, address ≠ state.blufiSec →
    state.heap.block address =
      if address = sec.dhParam then param.map .dhParam else none

theorem Holds.security_eq {state : SecurityState Dhm Aes}
    {sec : BlufiSecurity Dhm Aes} {param : Option (List UInt8)}
    (holds : Holds state sec param) : state.security = .ok sec :=
  SecurityState.security_of_live holds.notNull holds.live

/-- Once `*blufi_sec` is written, what matters are the other blocks. -/
theorem holds_withSecurity {state : SecurityState Dhm Aes}
    {changed : BlufiSecurity Dhm Aes} {param : Option (List UInt8)}
    (notNull : state.blufiSec ≠ 0) (shareLen : changed.shareLen ≤ 128)
    (null : changed.dhParam = 0 ↔ param = none)
    (apart : changed.dhParam ≠ state.blufiSec)
    (others : ∀ address, address ≠ state.blufiSec →
      state.heap.block address =
        if address = changed.dhParam then param.map .dhParam else none) :
    Holds (state.withSecurity changed) changed param where
  notNull := notNull
  live := Function.update_self _ _ _
  shareLen := shareLen
  null := null
  apart := apart
  others := by
    intro address elsewhere
    rw [← others address elsewhere]
    exact Function.update_of_ne elsewhere _ _

/-- Other members of `*blufi_sec`, with the same `dh_param`. -/
theorem Holds.withSecurity {state : SecurityState Dhm Aes}
    {sec changed : BlufiSecurity Dhm Aes} {param : Option (List UInt8)}
    (holds : Holds state sec param)
    (sameParam : changed.dhParam = sec.dhParam)
    (shareLen : changed.shareLen ≤ 128) :
    Holds (state.withSecurity changed) changed param := by
  refine holds_withSecurity holds.notNull shareLen ?_ ?_ ?_
  · rw [sameParam]
    exact holds.null
  · rw [sameParam]
    exact holds.apart
  · rw [sameParam]
    exact holds.others

/-- A change of the members that leaves `dh_param` alone. -/
theorem Holds.modify {state : SecurityState Dhm Aes}
    {sec changed : BlufiSecurity Dhm Aes} {param : Option (List UInt8)}
    (holds : Holds state sec param)
    (change : BlufiSecurity Dhm Aes → Except Fault (BlufiSecurity Dhm Aes))
    (changes : change sec = .ok changed)
    (sameParam : changed.dhParam = sec.dhParam)
    (shareLen : changed.shareLen ≤ 128) :
    state.modify change = .ok (state.withSecurity changed) ∧
      Holds (state.withSecurity changed) changed param :=
  ⟨SecurityState.modify_of_live state change holds.notNull holds.live
    changes, holds.withSecurity sameParam shareLen⟩

/-! ## The block of parameters -/

section Param

variable {state : SecurityState Dhm Aes} {sec : BlufiSecurity Dhm Aes}
  {content : List UInt8}

theorem Holds.dhParam_ne_zero (holds : Holds state sec (some content)) :
    sec.dhParam ≠ 0 := by
  rw [ne_eq, holds.null]
  exact Option.some_ne_none content

theorem Holds.dhParam_live (holds : Holds state sec (some content)) :
    state.heap.block sec.dhParam = some (.dhParam content) := by
  rw [holds.others sec.dhParam holds.apart, if_pos rfl]
  rfl

theorem Holds.paramLive (holds : Holds state sec (some content)) :
    ParamLive state sec content :=
  ⟨holds.notNull, holds.live, holds.dhParam_ne_zero, holds.dhParam_live⟩

/-- Without parameters no other block is live. -/
theorem Holds.others_of_none (holds : Holds state sec none) {address : Nat}
    (elsewhere : address ≠ state.blufiSec) :
    state.heap.block address = none := by
  rw [holds.others address elsewhere, Option.map_none, ite_self]

end Param

theorem Holds.freeDhParam {state : SecurityState Dhm Aes}
    {sec : BlufiSecurity Dhm Aes} {content : List UInt8}
    (holds : Holds state sec (some content)) :
    ∃ next changed,
      state.freeDhParam = .ok next ∧
        Holds next changed none ∧
        next.blufiSec = state.blufiSec ∧
        changed.dhm = sec.dhm ∧
        changed.dhParamLen = sec.dhParamLen := by
  obtain ⟨changed, freed, sameDhm, isNull, sameLength, sameShareLen⟩ :=
    holds.paramLive.freeDhParam
  refine ⟨_, changed, freed, holds_withSecurity holds.notNull ?_ ?_ ?_ ?_,
    rfl, sameDhm, sameLength⟩
  · rw [sameShareLen]
    exact holds.shareLen
  · exact iff_of_true isNull rfl
  · rw [isNull]
    exact holds.notNull.symm
  · intro address elsewhere
    rw [Option.map_none, ite_self]
    by_cases isParam : address = sec.dhParam
    · rw [isParam]
      exact Function.update_self _ _ _
    · have kept := holds.others address elsewhere
      rw [if_neg isParam] at kept
      exact (Function.update_of_ne isParam _ _).trans kept

theorem Holds.releaseDhParam {state : SecurityState Dhm Aes}
    {sec : BlufiSecurity Dhm Aes} {param : Option (List UInt8)}
    (holds : Holds state sec param) :
    ∃ next changed,
      state.releaseDhParam = .ok next ∧
        Holds next changed none ∧
        next.blufiSec = state.blufiSec ∧
        changed.dhm = sec.dhm ∧
        changed.dhParamLen = sec.dhParamLen := by
  rw [SecurityState.releaseDhParam, holds.security_eq]
  simp only [bind, Except.bind]
  cases param with
  | none =>
      rw [if_neg (not_not.mpr (holds.null.mpr rfl))]
      exact ⟨state, sec, rfl, holds, rfl, rfl, rfl⟩
  | some content =>
      rw [if_pos holds.dhParam_ne_zero]
      exact holds.freeDhParam

/-- The new block, or the null pointer, is stored in `dh_param`. -/
theorem Holds.allocate {state : SecurityState Dhm Aes}
    {sec : BlufiSecurity Dhm Aes} (holds : Holds state sec none)
    (allocated : Option Nat) (fresh : List UInt8) :
    ∃ next changed param,
      SecurityState.modify
          { state with
            heap := (state.heap.malloc allocated (.dhParam fresh)).1 }
          (·.put dhParamAt
            (encode 4 (state.heap.malloc allocated (.dhParam fresh)).2)) =
        .ok next ∧
        Holds next changed param ∧
        next.blufiSec = state.blufiSec ∧
        changed.dhParamLen = sec.dhParamLen ∧
        ∀ content, param = some content → content = fresh := by
  obtain ⟨next, changed, modified, sameLength, sameShareLen, way⟩ :=
    state.allocate holds.notNull holds.live allocated fresh
  have shareLen : changed.shareLen ≤ 128 := by
    rw [sameShareLen]
    exact holds.shareLen
  rcases way with ⟨isNull, isNext⟩ | ⟨notNull, apart, isNext⟩
  · rw [isNext] at modified
    refine ⟨_, changed, none, modified,
      holds_withSecurity holds.notNull shareLen (iff_of_true isNull rfl) ?_
        ?_, rfl, sameLength, ?_⟩
    · rw [isNull]
      exact holds.notNull.symm
    · intro address elsewhere
      rw [Option.map_none, ite_self]
      exact holds.others_of_none elsewhere
    · intro content isSome
      cases isSome
  · rw [isNext] at modified
    refine ⟨_, changed, some fresh, modified,
      holds_withSecurity holds.notNull shareLen
        (iff_of_false notNull (Option.some_ne_none fresh)) apart ?_, rfl,
      sameLength, fun content isFresh => (Option.some_inj.mp isFresh).symm⟩
    intro address elsewhere
    by_cases isParam : address = changed.dhParam
    · rw [if_pos isParam, isParam]
      exact Function.update_self _ _ _
    · rw [if_neg isParam]
      exact (Function.update_of_ne isParam _ _).trans
        (holds.others_of_none elsewhere)

/-! ## The messages -/

/-- `blufi_sec` is live, and the block at `dh_param`, if any, has the length
`dh_param_len`. -/
def Settled (state : SecurityState Dhm Aes) : Prop :=
  ∃ sec param,
    Holds state sec param ∧
      ∀ content, param = some content → content.length = sec.dhParamLen

theorem Holds.dhParamLenCase {state : SecurityState Dhm Aes}
    {sec : BlufiSecurity Dhm Aes} {param : Option (List UInt8)}
    (holds : Holds state sec param) (message : Message)
    (allocated : Option Nat) :
    ∃ next reply,
      dhParamLenCase state message allocated = .ok (next, reply) ∧
        Settled next ∧ next.blufiSec = state.blufiSec := by
  have highByte := (message.data 1).toNat_lt
  have lowByte := (message.data 2).toNat_lt
  obtain ⟨announced, put, sameParam, isLength, sameShareLen⟩ :=
    sec.put_dhParamLen
      ((message.data 1).toNat * 256 + (message.data 2).toNat) (by omega)
  obtain ⟨modified, holdsAnnounced⟩ :=
    holds.modify (·.put dhParamLenAt (encode 4 _)) put sameParam (by
      rw [sameShareLen]
      exact holds.shareLen)
  obtain ⟨released, changed, isReleased, holdsReleased, samePointer, _,
    sameLength⟩ := holdsAnnounced.releaseDhParam
  obtain ⟨next, final, newParam, isNext, holdsNext, nextPointer,
    nextLength, isFresh⟩ :=
    holdsReleased.allocate allocated
      (List.replicate
        ((message.data 1).toNat * 256 + (message.data 2).toNat) 0)
  have settled : Settled next := by
    refine ⟨final, newParam, holdsNext, ?_⟩
    intro content isSome
    rw [isFresh content isSome, nextLength, sameLength, isLength,
      List.length_replicate]
  have samePointers : next.blufiSec = state.blufiSec :=
    nextPointer.trans samePointer
  simp only [Esp32Source.Blufi.dhParamLenCase, bind, Except.bind, modified,
    isReleased, isNext]
  exact ⟨next, _, rfl, settled, samePointers⟩

/-- The parameters replace the content of a block of their length. -/
theorem Holds.copyToDhParam {state : SecurityState Dhm Aes}
    {sec : BlufiSecurity Dhm Aes} {content source : List UInt8}
    (holds : Holds state sec (some content))
    (sameLength : source.length = content.length) :
    ∃ heap,
      copyToDhParam state.heap sec.dhParam source = .ok heap ∧
        Holds { state with heap } sec (some source) := by
  have notNull := holds.dhParam_ne_zero
  obtain ⟨copied, copiedLive⟩ :=
    holds.paramLive.copyToDhParam (Nat.le_of_eq sameLength)
  have replaced : overlay source content = source :=
    (overlay_eq_new_iff source content).mpr (Nat.le_of_eq sameLength.symm)
  rw [replaced] at copied copiedLive
  refine ⟨_, copied, holds.notNull, copiedLive.live, holds.shareLen,
    iff_of_false notNull (Option.some_ne_none source), holds.apart, ?_⟩
  intro address elsewhere
  by_cases isParam : address = sec.dhParam
  · rw [if_pos isParam, isParam]
    exact Function.update_self _ _ _
  · have kept := holds.others address elsewhere
    rw [if_neg isParam] at kept
    rw [if_neg isParam, ← kept]
    exact Function.update_of_ne isParam _ _

theorem BlufiSecurity.putShareLen_of_short (sec : BlufiSecurity Dhm Aes)
    {olen : Option Nat} (bounded : sec.shareLen ≤ 128)
    (short : ∀ length, olen = some length → length ≤ 128) :
    ∃ measured,
      sec.putShareLen olen = .ok measured ∧
        measured.dhParam = sec.dhParam ∧ measured.shareLen ≤ 128 := by
  cases olen with
  | none =>
      exact ⟨sec, rfl, rfl, bounded⟩
  | some length =>
      have lengthShort := short length rfl
      obtain ⟨measured, put, _, isLength, elsewhere⟩ :=
        sec.put_word shareLenAt length (by decide) (by omega)
      refine ⟨measured, put, ?_, ?_⟩
      · rw [dhParam, elsewhere dhParamAt 4 (Or.inr (by decide))]
        rfl
      · rw [shareLen, isLength]
        exact lengthShort

variable {mbedtls : Mbedtls Dhm Aes Env}

theorem Holds.makePublic (documented : mbedtls.Documented)
    {state : SecurityState Dhm Aes} {sec : BlufiSecurity Dhm Aes}
    {param : Option (List UInt8)} (holds : Holds state sec param)
    (short : mbedtls.sizeP sec.dhm ≤ 128) (env : Env) :
    ∃ next ret changed,
      makePublic mbedtls state env = .ok (next, ret) ∧
        Holds next changed param ∧
        next.blufiSec = state.blufiSec ∧
        mbedtls.sizeP changed.dhm ≤ 128 := by
  have outputShort := documented.makePublic_length env sec.dhm
    (mbedtls.sizeP sec.dhm) (mbedtls.sizeP sec.dhm)
  have sameSize := documented.makePublic_sizeP env sec.dhm
    (mbedtls.sizeP sec.dhm) (mbedtls.sizeP sec.dhm)
  generalize isMade : mbedtls.dhmMakePublic env sec.dhm
    (mbedtls.sizeP sec.dhm) (mbedtls.sizeP sec.dhm) = made
    at outputShort sameSize
  obtain ⟨stored, put, _, sameParam, _, sameLength⟩ :=
    sec.put_keeps selfPublicKeyAt made.output
      (by rw [selfPublicKeyAt]; omega)
      (by rw [selfPublicKeyAt, dhParamAt]; omega)
  have bounded : stored.shareLen ≤ 128 := by
    rw [sameLength (Or.inl (by rw [selfPublicKeyAt, shareLenAt]; omega))]
    exact holds.shareLen
  refine ⟨_, made.ret, { stored with dhm := made.dhm },
    makePublic_of_put holds.notNull holds.live isMade put,
    holds.withSecurity sameParam bounded, rfl, ?_⟩
  rw [sameSize]
  exact short

theorem Holds.calcSecret (documented : mbedtls.Documented)
    {state : SecurityState Dhm Aes} {sec : BlufiSecurity Dhm Aes}
    {param : Option (List UInt8)} (holds : Holds state sec param)
    (short : mbedtls.sizeP sec.dhm ≤ 128) (env : Env) :
    ∃ next changed,
      calcSecret mbedtls state env = .ok next ∧
        Holds next changed param ∧ next.blufiSec = state.blufiSec := by
  have outputShort :=
    documented.calcSecret_length env sec.dhm shareKeyBitLen
  have olenShort := documented.calcSecret_olen env sec.dhm shareKeyBitLen
  generalize isSecret : mbedtls.dhmCalcSecret env sec.dhm shareKeyBitLen =
    secret at outputShort olenShort
  obtain ⟨measured, isMeasured, measuredParam, measuredLength⟩ :=
    sec.putShareLen_of_short holds.shareLen fun length isLength =>
      Nat.le_trans (olenShort length isLength) short
  obtain ⟨stored, put, _, storedParam, _, storedLength⟩ :=
    measured.put_keeps shareKeyAt secret.output
      (by rw [shareKeyAt]; omega) (by rw [shareKeyAt, dhParamAt]; omega)
  have bounded : stored.shareLen ≤ 128 := by
    rw [storedLength (Or.inl (by rw [shareKeyAt, shareLenAt]; omega))]
    exact measuredLength
  exact ⟨_, { stored with dhm := secret.dhm },
    calcSecret_of_put holds.notNull holds.live isSecret isMeasured put,
    holds.withSecurity (storedParam.trans measuredParam) bounded, rfl⟩

theorem Holds.hashSecret (documented : mbedtls.Documented)
    {state : SecurityState Dhm Aes} {sec : BlufiSecurity Dhm Aes}
    {param : Option (List UInt8)} (holds : Holds state sec param)
    (env : Env) :
    ∃ next ret changed,
      hashSecret mbedtls state env = .ok (next, ret) ∧
        Holds next changed param ∧ next.blufiSec = state.blufiSec := by
  have bounded := holds.shareLen
  have loaded := sec.raw.load_of_fits shareKeyAt sec.shareLen (by
    rw [shareKeyAt]
    omega)
  have digestShort :=
    documented.md5_length env (sec.raw.window shareKeyAt sec.shareLen)
  rw [Esp32Source.Blufi.hashSecret, holds.security_eq]
  simp only [bind, Except.bind, loaded]
  generalize mbedtls.md5 env (sec.raw.window shareKeyAt sec.shareLen) =
    digest at digestShort
  obtain ⟨stored, put, _, sameParam, _, sameLength⟩ :=
    sec.put_keeps pskAt digest.2 (by rw [pskAt]; omega)
      (by rw [pskAt, dhParamAt]; omega)
  obtain ⟨modified, holdsNext⟩ :=
    holds.modify (·.put pskAt digest.2) put sameParam (by
      rw [sameLength (Or.inr (by decide))]
      exact bounded)
  refine ⟨_, digest.1, stored, ?_, holdsNext, rfl⟩
  rw [modified]
  rfl

/-- A key exchange with a prime of at most 128 bytes stays in its arrays. -/
theorem Holds.keyExchange (documented : mbedtls.Documented)
    {state : SecurityState Dhm Aes} {sec : BlufiSecurity Dhm Aes}
    {param : Option (List UInt8)} (holds : Holds state sec param)
    (short : mbedtls.sizeP sec.dhm ≤ 128) (env : Env) (dataRead : Nat) :
    ∃ next reply changed,
      keyExchange mbedtls state env dataRead = .ok (next, reply) ∧
        Holds next changed param ∧ next.blufiSec = state.blufiSec := by
  obtain ⟨published, publicRet, publicSec, isPublished, holdsPublished,
    publishedPointer, publicShort⟩ :=
    holds.makePublic documented short env
  simp only [Esp32Source.Blufi.keyExchange, bind, Except.bind, isPublished]
  by_cases publicFails : publicRet ≠ 0
  · rw [if_pos publicFails]
    exact ⟨published, _, publicSec, rfl, holdsPublished, publishedPointer⟩
  · rw [if_neg publicFails]
    obtain ⟨shared, sharedSec, isShared, holdsShared, sharedPointer⟩ :=
      holdsPublished.calcSecret documented publicShort env
    obtain ⟨hashed, hashRet, hashedSec, isHashed, holdsHashed,
      hashedPointer⟩ :=
      holdsShared.hashSecret documented env
    have samePointer : hashed.blufiSec = state.blufiSec :=
      hashedPointer.trans (sharedPointer.trans publishedPointer)
    simp only [isShared, isHashed]
    by_cases hashFails : hashRet ≠ 0
    · rw [if_pos hashFails]
      exact ⟨hashed, _, hashedSec, rfl, holdsHashed, samePointer⟩
    · rw [if_neg hashFails]
      obtain ⟨keyed, holdsKeyed⟩ :=
        holdsHashed.modify
          (fun sec =>
            .ok { sec with
              aes := mbedtls.aesSetkeyEnc sec.aes sec.psk 128 })
          rfl rfl holdsHashed.shareLen
      simp only [setKey, keyed, holdsKeyed.security_eq]
      exact ⟨_, _, _, rfl, holdsKeyed, samePointer⟩

/-- The parameters of a message, when they are accepted, have a prime of at
most 128 bytes. -/
def ShortPrime (mbedtls : Mbedtls Dhm Aes Env)
    (sec : BlufiSecurity Dhm Aes) (message : Message) (env : Env) : Prop :=
  sec.dhParam ≠ 0 →
    (mbedtls.dhmReadParams env sec.dhm
      (message.params sec.dhParamLen)).1 = 0 →
      mbedtls.sizeP (mbedtls.dhmReadParams env sec.dhm
        (message.params sec.dhParamLen)).2 ≤ 128

theorem dhParamDataCase_settles (documented : mbedtls.Documented)
    {state : SecurityState Dhm Aes} {sec : BlufiSecurity Dhm Aes}
    {param : Option (List UInt8)} (holds : Holds state sec param)
    (lengths : ∀ content, param = some content →
      content.length = sec.dhParamLen)
    (message : Message) (env : Env)
    (short : ShortPrime mbedtls sec message env) :
    ∃ next reply,
      dhParamDataCase mbedtls state message env = .ok (next, reply) ∧
        Settled next ∧ next.blufiSec = state.blufiSec := by
  rw [dhParamDataCase, holds.security_eq]
  simp only [bind, Except.bind]
  cases param with
  | none =>
      rw [if_pos (holds.null.mpr rfl)]
      exact ⟨state, _, rfl, ⟨sec, none, holds, lengths⟩, rfl⟩
  | some content =>
      have notNull := holds.dhParam_ne_zero
      have paramsLength :
          (message.params sec.dhParamLen).length = content.length := by
        rw [lengths content rfl]
        simp [Message.params]
      obtain ⟨heap, copied, holdsCopied⟩ :=
        holds.copyToDhParam paramsLength
      have shortPrime := short notNull
      rw [if_neg notNull]
      simp only [copied]
      generalize mbedtls.dhmReadParams env sec.dhm
        (message.params sec.dhParamLen) = result at shortPrime
      obtain ⟨isRead, holdsRead⟩ :=
        holdsCopied.modify (fun sec => .ok { sec with dhm := result.2 })
          rfl rfl holds.shareLen
      simp only [isRead]
      by_cases rejected : result.1 ≠ 0
      · rw [if_pos rejected]
        refine ⟨_, _, rfl, ⟨_, _, holdsRead, ?_⟩, rfl⟩
        intro written isWritten
        cases isWritten
        rw [paramsLength]
        exact lengths content rfl
      · rw [if_neg rejected]
        obtain ⟨freed, freedSec, isFreed, holdsFreed, freedPointer,
          sameDhm, _⟩ := holdsRead.freeDhParam
        have freedShort : mbedtls.sizeP freedSec.dhm ≤ 128 := by
          rw [sameDhm]
          exact shortPrime (not_not.mp rejected)
        obtain ⟨next, reply, changed, exchanged, holdsNext, nextPointer⟩ :=
          holdsFreed.keyExchange documented freedShort env
            (1 + sec.dhParamLen)
        simp only [isFreed, exchanged]
        refine ⟨next, reply, rfl, ⟨changed, none, holdsNext, ?_⟩,
          nextPointer.trans freedPointer⟩
        intro written isWritten
        cases isWritten

end Esp32Source.Blufi
