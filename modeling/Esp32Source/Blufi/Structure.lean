import Esp32Source.Blufi.Ownership

/-!
# What the functions do to the structure

A rule for each function of the negotiation: which property `*blufi_sec` has
behind a call that returns, from one that it has in front of it and from what
the call writes.  The rest of the heap may be in any shape, so that the rules
hold also where a write has run over the member `dh_param`.
-/

namespace Esp32Source.Blufi

open Memory Machine

variable {Dhm Aes Env : Type} {mbedtls : Mbedtls Dhm Aes Env}

/-- `blufi_sec` points to a live structure with the property. -/
def Has (holds : BlufiSecurity Dhm Aes → Prop)
    (state : SecurityState Dhm Aes) : Prop :=
  ∃ sec, state.security = .ok sec ∧ holds sec

theorem Has.imp {before behind : BlufiSecurity Dhm Aes → Prop}
    {state : SecurityState Dhm Aes} (has : Has before state)
    (follows : ∀ sec, before sec → behind sec) : Has behind state := by
  obtain ⟨sec, isSec, holds⟩ := has
  exact ⟨sec, isSec, follows sec holds⟩

theorem SecurityState.security_eq_ok_iff {state : SecurityState Dhm Aes}
    {sec : BlufiSecurity Dhm Aes} :
    state.security = .ok sec ↔
      state.heap.load state.blufiSec = .ok (.security sec) := by
  constructor
  · intro isSec
    obtain ⟨block, loaded, rest⟩ := bind_eq_ok_iff.mp isSec
    cases block with
    | security sec =>
        cases rest
        exact loaded
    | dhParam content =>
        cases rest
  · intro loaded
    rw [SecurityState.security, loaded]
    rfl

theorem SecurityState.security_withSecurity {state : SecurityState Dhm Aes}
    (notNull : state.blufiSec ≠ 0) (sec : BlufiSecurity Dhm Aes) :
    (state.withSecurity sec).security = .ok sec := by
  have live : (state.withSecurity sec).heap.block state.blufiSec =
      some (.security sec) :=
    Function.update_self _ _ _
  exact SecurityState.security_eq_ok_iff.mpr
    (Heap.load_of_live notNull live)

theorem SecurityState.modify_eq_ok {state next : SecurityState Dhm Aes}
    {change : BlufiSecurity Dhm Aes → Except Fault (BlufiSecurity Dhm Aes)}
    (modified : state.modify change = .ok next) :
    ∃ sec changed,
      state.security = .ok sec ∧ change sec = .ok changed ∧
        next.security = .ok changed := by
  obtain ⟨sec, isSec, rest⟩ := bind_eq_ok_iff.mp modified
  obtain ⟨changed, changes, rest⟩ := bind_eq_ok_iff.mp rest
  obtain ⟨heap, stored, rest⟩ := bind_eq_ok_iff.mp rest
  cases rest
  obtain ⟨old, loaded, rest⟩ := bind_eq_ok_iff.mp stored
  cases rest
  have notNull := (Heap.load_eq_ok_iff.mp loaded).1
  exact ⟨sec, changed, isSec, changes,
    SecurityState.security_of_live notNull (Function.update_self _ _ _)⟩

/-- `memcpy` writes into a parameter block, so it leaves the structures. -/
theorem load_of_copyToDhParam {heap copied : Heap (Block Dhm Aes)}
    {pointer address : Nat} {source : List UInt8}
    {sec : BlufiSecurity Dhm Aes}
    (isCopied : copyToDhParam heap pointer source = .ok copied)
    (loaded : copied.load address = .ok (.security sec)) :
    heap.load address = .ok (.security sec) := by
  obtain ⟨block, _, rest⟩ := bind_eq_ok_iff.mp isCopied
  cases block with
  | security other =>
      cases rest
  | dhParam content =>
      dsimp only at rest
      by_cases fits : source.length ≤ content.length
      · rw [if_pos fits] at rest
        rcases Heap.load_of_store rest loaded with isNew | isOld
        · cases isNew
        · exact isOld
      · rw [if_neg fits] at rest
        cases rest

/-! ## Changes of the members -/

variable {before behind : BlufiSecurity Dhm Aes → Prop}
  {state next : SecurityState Dhm Aes}

/-- The heap may have changed before, as long as the structure that is changed
was there. -/
theorem Has.modify {middle : SecurityState Dhm Aes}
    {change : BlufiSecurity Dhm Aes → Except Fault (BlufiSecurity Dhm Aes)}
    (has : Has before state)
    (sameSec : ∀ sec, middle.security = .ok sec → state.security = .ok sec)
    (changes : ∀ sec changed,
      before sec → change sec = .ok changed → behind changed)
    (modified : middle.modify change = .ok next) : Has behind next := by
  obtain ⟨sec, isSec, holds⟩ := has
  obtain ⟨found, changed, isFound, isChanged, isNext⟩ :=
    SecurityState.modify_eq_ok modified
  cases isSec.symm.trans (sameSec found isFound)
  exact ⟨changed, isNext, changes sec changed holds isChanged⟩

/-- A number stored in front of `iv` keeps the property. -/
def KeptByWords (holds : BlufiSecurity Dhm Aes → Prop) : Prop :=
  ∀ sec stored position number,
    position + 4 ≤ ivAt → holds sec →
      sec.put position (encode 4 number) = .ok stored → holds stored

/-- A number stored in `dh_param` keeps the property. -/
def KeptByDhParam (holds : BlufiSecurity Dhm Aes → Prop) : Prop :=
  ∀ sec stored number, holds sec →
    sec.put dhParamAt (encode 4 number) = .ok stored → holds stored

theorem KeptByWords.dhParam (kept : KeptByWords before) :
    KeptByDhParam before := by
  intro sec stored number holds isStored
  exact kept sec stored dhParamAt number (by decide) holds isStored

theorem Has.freeDhParam (has : Has before state)
    (kept : KeptByDhParam before) (freed : state.freeDhParam = .ok next) :
    Has before next := by
  obtain ⟨sec, _, rest⟩ := bind_eq_ok_iff.mp freed
  obtain ⟨heap, isFreed, modified⟩ := bind_eq_ok_iff.mp rest
  refine has.modify ?_ ?_ modified
  · intro found isFound
    have loaded := SecurityState.security_eq_ok_iff.mp isFound
    exact SecurityState.security_eq_ok_iff.mpr
      (Heap.load_of_free isFreed loaded)
  · intro found stored holds isStored
    exact kept found stored 0 holds isStored

theorem Has.releaseDhParam (has : Has before state)
    (kept : KeptByDhParam before)
    (released : state.releaseDhParam = .ok next) : Has before next := by
  obtain ⟨sec, _, rest⟩ := bind_eq_ok_iff.mp released
  by_cases holdsParam : sec.dhParam ≠ 0
  · rw [if_pos holdsParam] at rest
    exact has.freeDhParam kept rest
  · rw [if_neg holdsParam] at rest
    cases rest
    exact has

theorem Has.dhParamLenCase {message : Message} {allocated : Option Nat}
    {reply : NegotiateReply} (has : Has before state)
    (kept : KeptByWords before)
    (handled :
      dhParamLenCase state message allocated = .ok (next, reply)) :
    Has before next := by
  obtain ⟨announced, isAnnounced, rest⟩ := bind_eq_ok_iff.mp handled
  obtain ⟨released, isReleased, rest⟩ := bind_eq_ok_iff.mp rest
  obtain ⟨pointed, isPointed, rest⟩ := bind_eq_ok_iff.mp rest
  cases rest
  have announcedHas : Has before announced := by
    refine has.modify (fun _ isSec => isSec) ?_ isAnnounced
    intro found stored holds isStored
    exact kept found stored _ _ (by decide) holds isStored
  have releasedHas := announcedHas.releaseDhParam kept.dhParam isReleased
  refine releasedHas.modify ?_ ?_ isPointed
  · -- the block that is allocated is a new one
    intro found isFound
    obtain ⟨sec, isSec, _⟩ := releasedHas
    have loaded := SecurityState.security_eq_ok_iff.mp isSec
    have stillLoaded := Heap.load_malloc loaded allocated
      (.dhParam (List.replicate
        ((message.data 1).toNat * 256 + (message.data 2).toNat) 0))
    have foundLoaded := SecurityState.security_eq_ok_iff.mp isFound
    cases stillLoaded.symm.trans foundLoaded
    exact isSec
  · intro found stored holds isStored
    exact kept found stored _ _ (by decide) holds isStored

/-- The parameters are copied to their block and read into the context. -/
theorem Has.readParams {heap : Heap (Block Dhm Aes)} {pointer : Nat}
    {source : List UInt8} {dhm : Dhm} (has : Has before state)
    (reads : ∀ sec, before sec → behind { sec with dhm })
    (isCopied : copyToDhParam state.heap pointer source = .ok heap)
    (isRead :
      SecurityState.modify { state with heap }
        (fun sec => .ok { sec with dhm }) = .ok next) :
    Has behind next := by
  refine has.modify ?_ ?_ isRead
  · intro found isFound
    have loaded := SecurityState.security_eq_ok_iff.mp isFound
    exact SecurityState.security_eq_ok_iff.mpr
      (load_of_copyToDhParam isCopied loaded)
  · intro found changed holds changes
    cases changes
    exact reads found holds

/-- The ways through the case of `SEC_TYPE_DH_PARAM_DATA`: there are no
parameters, they are turned down, or the keys are exchanged. -/
theorem dhParamDataCase_cases {message : Message} {env : Env}
    {reply : NegotiateReply}
    (handled :
      dhParamDataCase mbedtls state message env = .ok (next, reply)) :
    ∃ sec, state.security = .ok sec ∧
      ((sec.dhParam = 0 ∧ next = state ∧
          reply = { report := some .dhParamError }) ∨
        (sec.dhParam ≠ 0 ∧ ∃ heap read,
          copyToDhParam state.heap sec.dhParam
              (message.params sec.dhParamLen) = .ok heap ∧
            SecurityState.modify { state with heap }
                (fun found => .ok { found with
                  dhm := (mbedtls.dhmReadParams env sec.dhm
                    (message.params sec.dhParamLen)).2 }) = .ok read ∧
            ((next = read ∧ reply =
                { report := some .readParamError,
                  dataRead := 1 + sec.dhParamLen }) ∨
              ((mbedtls.dhmReadParams env sec.dhm
                  (message.params sec.dhParamLen)).1 = 0 ∧
                ∃ freed, read.freeDhParam = .ok freed ∧
                  keyExchange mbedtls freed env (1 + sec.dhParamLen) =
                    .ok (next, reply))))) := by
  obtain ⟨sec, isSec, rest⟩ := bind_eq_ok_iff.mp handled
  refine ⟨sec, isSec, ?_⟩
  by_cases noParam : sec.dhParam = 0
  · rw [if_pos noParam] at rest
    cases rest
    exact Or.inl ⟨noParam, rfl, rfl⟩
  · rw [if_neg noParam] at rest
    obtain ⟨heap, isCopied, rest⟩ := bind_eq_ok_iff.mp rest
    obtain ⟨read, isRead, rest⟩ := bind_eq_ok_iff.mp rest
    refine Or.inr ⟨noParam, heap, read, isCopied, isRead, ?_⟩
    split at rest
    · cases rest
      exact Or.inl ⟨rfl, rfl⟩
    · rename_i isAccepted
      obtain ⟨freed, isFreed, exchanged⟩ := bind_eq_ok_iff.mp rest
      exact Or.inr ⟨not_not.mp isAccepted, freed, isFreed, exchanged⟩

/-! ## The key exchange -/

/-- The ways through a key exchange: the public key fails, the hash fails, or
the key is set. -/
theorem keyExchange_cases {env : Env} {dataRead : Nat}
    {reply : NegotiateReply}
    (exchanged :
      keyExchange mbedtls state env dataRead = .ok (next, reply)) :
    ∃ published publicRet,
      Blufi.makePublic mbedtls state env = .ok (published, publicRet) ∧
        ((next = published ∧
            reply = { report := some .makePublicError, dataRead }) ∨
          (publicRet = 0 ∧ ∃ shared hashed hashRet,
            Blufi.calcSecret mbedtls published env = .ok shared ∧
              Blufi.hashSecret mbedtls shared env =
                .ok (hashed, hashRet) ∧
              ((next = hashed ∧
                  reply = { report := some .calcMd5Error, dataRead }) ∨
                (setKey mbedtls hashed = .ok next ∧
                  ∃ sec, next.security = .ok sec ∧
                    reply = { outputLen := some (mbedtls.sizeP sec.dhm),
                              dataRead })))) := by
  obtain ⟨⟨published, publicRet⟩, isPublished, rest⟩ :=
    bind_eq_ok_iff.mp exchanged
  refine ⟨published, publicRet, isPublished, ?_⟩
  dsimp only at rest
  by_cases publicFails : publicRet ≠ 0
  · rw [if_pos publicFails] at rest
    cases rest
    exact Or.inl ⟨rfl, rfl⟩
  · rw [if_neg publicFails] at rest
    obtain ⟨shared, isShared, rest⟩ := bind_eq_ok_iff.mp rest
    obtain ⟨⟨hashed, hashRet⟩, isHashed, rest⟩ := bind_eq_ok_iff.mp rest
    refine Or.inr ⟨not_not.mp publicFails, shared, hashed, hashRet,
      isShared, isHashed, ?_⟩
    dsimp only at rest
    by_cases hashFails : hashRet ≠ 0
    · rw [if_pos hashFails] at rest
      cases rest
      exact Or.inl ⟨rfl, rfl⟩
    · rw [if_neg hashFails] at rest
      obtain ⟨keyed, isKeyed, rest⟩ := bind_eq_ok_iff.mp rest
      obtain ⟨sec, isSec, rest⟩ := bind_eq_ok_iff.mp rest
      cases rest
      exact Or.inr ⟨isKeyed, sec, isSec, rfl⟩

theorem Has.makePublic {env : Env} {ret : Int} (has : Has before state)
    (publishes : ∀ sec stored, before sec →
      sec.put selfPublicKeyAt
          (mbedtls.dhmMakePublic env sec.dhm (mbedtls.sizeP sec.dhm)
            (mbedtls.sizeP sec.dhm)).output = .ok stored →
        behind { stored with
          dhm := (mbedtls.dhmMakePublic env sec.dhm (mbedtls.sizeP sec.dhm)
            (mbedtls.sizeP sec.dhm)).dhm })
    (made : makePublic mbedtls state env = .ok (next, ret)) :
    Has behind next := by
  obtain ⟨sec, isSec, rest⟩ := bind_eq_ok_iff.mp made
  obtain ⟨stored, isStored, rest⟩ := bind_eq_ok_iff.mp rest
  cases rest
  obtain ⟨found, isFound, holds⟩ := has
  cases isSec.symm.trans isFound
  obtain ⟨same, changed, isSame, changes, isNext⟩ :=
    SecurityState.modify_eq_ok isStored
  cases isSec.symm.trans isSame
  obtain ⟨written, isWritten, rest⟩ := bind_eq_ok_iff.mp changes
  cases rest
  exact ⟨_, isNext, publishes sec written holds isWritten⟩

theorem Has.calcSecret {env : Env} (has : Has before state)
    (calculates : ∀ sec measured stored, before sec →
      sec.putShareLen
          (mbedtls.dhmCalcSecret env sec.dhm shareKeyBitLen).olen =
        .ok measured →
      measured.put shareKeyAt
          (mbedtls.dhmCalcSecret env sec.dhm shareKeyBitLen).output =
        .ok stored →
        behind { stored with
          dhm := (mbedtls.dhmCalcSecret env sec.dhm shareKeyBitLen).dhm })
    (calculated : calcSecret mbedtls state env = .ok next) :
    Has behind next := by
  obtain ⟨sec, isSec, isStored⟩ := bind_eq_ok_iff.mp calculated
  obtain ⟨found, isFound, holds⟩ := has
  cases isSec.symm.trans isFound
  obtain ⟨same, changed, isSame, changes, isNext⟩ :=
    SecurityState.modify_eq_ok isStored
  cases isSec.symm.trans isSame
  obtain ⟨measured, isMeasured, rest⟩ := bind_eq_ok_iff.mp changes
  obtain ⟨written, isWritten, rest⟩ := bind_eq_ok_iff.mp rest
  cases rest
  exact ⟨_, isNext,
    calculates sec measured written holds isMeasured isWritten⟩

theorem Has.hashSecret {env : Env} {ret : Int} (has : Has before state)
    (hashes : ∀ sec shared stored, before sec →
      sec.put pskAt (mbedtls.md5 env shared).2 = .ok stored →
        behind stored)
    (hashed : hashSecret mbedtls state env = .ok (next, ret)) :
    Has behind next := by
  obtain ⟨sec, _, rest⟩ := bind_eq_ok_iff.mp hashed
  obtain ⟨shared, _, rest⟩ := bind_eq_ok_iff.mp rest
  obtain ⟨stored, isStored, rest⟩ := bind_eq_ok_iff.mp rest
  cases rest
  refine has.modify (fun _ isSec => isSec) ?_ isStored
  intro found written holds isWritten
  exact hashes found shared written holds isWritten

theorem has_of_setKey
    (sets : ∀ sec, state.security = .ok sec →
      behind { sec with aes := mbedtls.aesSetkeyEnc sec.aes sec.psk 128 })
    (isSet : setKey mbedtls state = .ok next) : Has behind next := by
  obtain ⟨sec, changed, isSec, changes, isNext⟩ :=
    SecurityState.modify_eq_ok isSet
  cases changes
  exact ⟨_, isNext, sets sec isSec⟩

/-! ## The handler -/

section Handler

variable {message : Message} {allocated : Option Nat} {env : Env}
  {reply : NegotiateReply}

theorem handler_of_null (isNull : state.blufiSec = 0) :
    blufiDhNegotiateDataHandler mbedtls state message allocated env =
      .ok (state, { report := some .initSecurityError }) :=
  if_pos isNull

theorem handler_of_len (notNull : state.blufiSec ≠ 0)
    (isLen : message.data 0 = secTypeDhParamLen) :
    blufiDhNegotiateDataHandler mbedtls state message allocated env =
      dhParamLenCase state message allocated := by
  simp only [blufiDhNegotiateDataHandler, if_neg notNull, if_pos isLen]

theorem handler_of_data (notNull : state.blufiSec ≠ 0)
    (isData : message.data 0 = secTypeDhParamData) :
    blufiDhNegotiateDataHandler mbedtls state message allocated env =
      dhParamDataCase mbedtls state message env := by
  have notLen : message.data 0 ≠ secTypeDhParamLen := by
    rw [isData]
    decide
  simp only [blufiDhNegotiateDataHandler, if_neg notNull, if_neg notLen,
    if_pos isData]

theorem handler_of_other (notNull : state.blufiSec ≠ 0)
    (notLen : message.data 0 ≠ secTypeDhParamLen)
    (notData : message.data 0 ≠ secTypeDhParamData) :
    blufiDhNegotiateDataHandler mbedtls state message allocated env =
      .ok (state, {}) := by
  simp only [blufiDhNegotiateDataHandler, if_neg notNull, if_neg notLen,
    if_neg notData]

/-- The ways through the handler: there is no structure, the message sets a
length or brings parameters, or it is of another type. -/
theorem handler_cases
    (handled :
      blufiDhNegotiateDataHandler mbedtls state message allocated env =
        .ok (next, reply)) :
    (state.blufiSec = 0 ∧ next = state ∧
        reply = { report := some .initSecurityError }) ∨
      (state.blufiSec ≠ 0 ∧
        ((message.data 0 = secTypeDhParamLen ∧
            Blufi.dhParamLenCase state message allocated =
              .ok (next, reply)) ∨
          (message.data 0 = secTypeDhParamData ∧
            dhParamDataCase mbedtls state message env =
              .ok (next, reply)) ∨
          (next = state ∧ reply = {}))) := by
  by_cases isNull : state.blufiSec = 0
  · rw [handler_of_null isNull] at handled
    cases handled
    exact Or.inl ⟨isNull, rfl, rfl⟩
  · refine Or.inr ⟨isNull, ?_⟩
    by_cases isLen : message.data 0 = secTypeDhParamLen
    · rw [handler_of_len isNull isLen] at handled
      exact Or.inl ⟨isLen, handled⟩
    · by_cases isData : message.data 0 = secTypeDhParamData
      · rw [handler_of_data isNull isData] at handled
        exact Or.inr (Or.inl ⟨isData, handled⟩)
      · rw [handler_of_other isNull isLen isData] at handled
        cases handled
        exact Or.inr (Or.inr ⟨rfl, rfl⟩)

end Handler

end Esp32Source.Blufi
