import Esp32Source.Blufi.Security

/-!
# The two blocks

What the functions do to `*blufi_sec` and to the block of parameters while
these are live: a write to a member leaves the members that it does not touch,
and a write to one block leaves the other.  Nothing is asked of the rest of
the heap.
-/

namespace Esp32Source.Blufi

open Memory Machine

variable {Dhm Aes Env : Type}

/-! ## The members of the structure -/

/-- A write in the range of the members succeeds, and keeps the windows that
it does not touch. -/
theorem BlufiSecurity.put_of_fits (sec : BlufiSecurity Dhm Aes)
    (position : Nat) (source : List UInt8)
    (fits : position + source.length ≤ 300) :
    ∃ changed,
      sec.put position source = .ok changed ∧
        changed.dhm = sec.dhm ∧
        changed.raw.window position source.length = source ∧
        ∀ start length,
          start + length ≤ position ∨ position + source.length ≤ start →
            changed.raw.window start length =
              sec.raw.window start length := by
  obtain ⟨raw, stored, _⟩ := sec.raw.store_of_fits position source fits
  refine ⟨{ sec with raw }, ?_, rfl, Buffer.window_store_self stored,
    fun start length => Buffer.window_store_disjoint stored⟩
  rw [put, stored]
  rfl

/-- A write that touches neither of two members keeps their values. -/
theorem BlufiSecurity.put_keeps (sec : BlufiSecurity Dhm Aes)
    (position : Nat) (source : List UInt8)
    (fits : position + source.length ≤ 300)
    (beforeParam : position + source.length ≤ dhParamAt) :
    ∃ changed,
      sec.put position source = .ok changed ∧
        changed.dhm = sec.dhm ∧
        changed.dhParam = sec.dhParam ∧
        changed.dhParamLen = sec.dhParamLen ∧
        (position + source.length ≤ shareLenAt ∨ shareLenAt + 4 ≤ position →
          changed.shareLen = sec.shareLen) := by
  obtain ⟨changed, put, sameDhm, _, elsewhere⟩ :=
    sec.put_of_fits position source fits
  have paramLenBehind : dhParamAt ≤ dhParamLenAt := by
    decide
  refine ⟨changed, put, sameDhm, ?_, ?_, ?_⟩
  · rw [dhParam, elsewhere dhParamAt 4 (Or.inr beforeParam)]
    rfl
  · rw [dhParamLen, elsewhere dhParamLenAt 4
      (Or.inr (Nat.le_trans beforeParam paramLenBehind))]
    rfl
  · intro apart
    rw [shareLen, elsewhere shareLenAt 4 (by omega)]
    rfl

/-- A number stored in a member of four bytes is read back. -/
theorem BlufiSecurity.put_word (sec : BlufiSecurity Dhm Aes)
    (position value : Nat) (inside : position + 4 ≤ 300)
    (fits : value < 256 ^ 4) :
    ∃ changed,
      sec.put position (encode 4 value) = .ok changed ∧
        changed.dhm = sec.dhm ∧
        decode (changed.raw.window position 4) = value ∧
        ∀ start length,
          start + length ≤ position ∨ position + 4 ≤ start →
            changed.raw.window start length =
              sec.raw.window start length := by
  obtain ⟨changed, put, sameDhm, written, elsewhere⟩ :=
    sec.put_of_fits position (encode 4 value) (by
      rw [length_encode]
      exact inside)
  rw [length_encode] at written elsewhere
  refine ⟨changed, put, sameDhm, ?_, elsewhere⟩
  rw [written, decode_encode fits]

/-- Pointing `dh_param` elsewhere leaves the members in front of it and the
length behind it. -/
theorem BlufiSecurity.put_dhParam (sec : BlufiSecurity Dhm Aes)
    (pointer : Nat) (fits : pointer < 256 ^ 4) :
    ∃ changed,
      sec.put dhParamAt (encode 4 pointer) = .ok changed ∧
        changed.dhm = sec.dhm ∧
        changed.dhParam = pointer ∧
        changed.dhParamLen = sec.dhParamLen ∧
        changed.shareLen = sec.shareLen := by
  obtain ⟨changed, put, sameDhm, isPointer, elsewhere⟩ :=
    sec.put_word dhParamAt pointer (by decide) fits
  refine ⟨changed, put, sameDhm, isPointer, ?_, ?_⟩
  · rw [dhParamLen, elsewhere dhParamLenAt 4 (Or.inr (by decide))]
    rfl
  · rw [shareLen, elsewhere shareLenAt 4 (Or.inl (by decide))]
    rfl

theorem BlufiSecurity.put_dhParamLen (sec : BlufiSecurity Dhm Aes)
    (length : Nat) (fits : length < 256 ^ 4) :
    ∃ changed,
      sec.put dhParamLenAt (encode 4 length) = .ok changed ∧
        changed.dhParam = sec.dhParam ∧
        changed.dhParamLen = length ∧
        changed.shareLen = sec.shareLen := by
  obtain ⟨changed, put, _, isLength, elsewhere⟩ :=
    sec.put_word dhParamLenAt length (by decide) fits
  refine ⟨changed, put, ?_, isLength, ?_⟩
  · rw [dhParam, elsewhere dhParamAt 4 (Or.inl (by decide))]
    rfl
  · rw [shareLen, elsewhere shareLenAt 4 (Or.inl (by decide))]
    rfl

/-! ## Writing a block -/

/-- The state with other members of `*blufi_sec`. -/
def SecurityState.withSecurity (state : SecurityState Dhm Aes)
    (sec : BlufiSecurity Dhm Aes) : SecurityState Dhm Aes where
  heap := ⟨Function.update state.heap.block state.blufiSec
    (some (.security sec))⟩
  blufiSec := state.blufiSec

theorem SecurityState.security_of_live {state : SecurityState Dhm Aes}
    {sec : BlufiSecurity Dhm Aes} (notNull : state.blufiSec ≠ 0)
    (live : state.heap.block state.blufiSec = some (.security sec)) :
    state.security = .ok sec := by
  rw [security, Heap.load_of_live notNull live]
  rfl

theorem SecurityState.modify_of_live (state : SecurityState Dhm Aes)
    (change : BlufiSecurity Dhm Aes → Except Fault (BlufiSecurity Dhm Aes))
    {sec changed : BlufiSecurity Dhm Aes} (notNull : state.blufiSec ≠ 0)
    (live : state.heap.block state.blufiSec = some (.security sec))
    (changes : change sec = .ok changed) :
    state.modify change = .ok (state.withSecurity changed) := by
  rw [modify, security_of_live notNull live]
  simp only [bind, Except.bind, changes, Heap.store_of_live notNull live]
  rfl

/-- The state with another block at an address. -/
def SecurityState.withBlock (state : SecurityState Dhm Aes) (address : Nat)
    (block : Option (Block Dhm Aes)) : SecurityState Dhm Aes where
  heap := ⟨Function.update state.heap.block address block⟩
  blufiSec := state.blufiSec

/-- What is written elsewhere leaves `*blufi_sec`. -/
theorem SecurityState.live_withBlock {state : SecurityState Dhm Aes}
    {sec : BlufiSecurity Dhm Aes} {address : Nat}
    (apart : address ≠ state.blufiSec)
    (live : state.heap.block state.blufiSec = some (.security sec))
    (block : Option (Block Dhm Aes)) :
    (state.withBlock address block).heap.block
        (state.withBlock address block).blufiSec =
      some (.security sec) :=
  (Function.update_of_ne apart.symm _ _).trans live

/-- The null pointer is stored in `dh_param`, or the address of a new
block. -/
theorem SecurityState.allocate (state : SecurityState Dhm Aes)
    {sec : BlufiSecurity Dhm Aes} (notNull : state.blufiSec ≠ 0)
    (live : state.heap.block state.blufiSec = some (.security sec))
    (allocated : Option Nat) (fresh : List UInt8) :
    ∃ next changed,
      SecurityState.modify
          { state with
            heap := (state.heap.malloc allocated (.dhParam fresh)).1 }
          (·.put dhParamAt
            (encode 4 (state.heap.malloc allocated (.dhParam fresh)).2)) =
        .ok next ∧
        changed.dhParamLen = sec.dhParamLen ∧
        changed.shareLen = sec.shareLen ∧
        ((changed.dhParam = 0 ∧ next = state.withSecurity changed) ∨
          (changed.dhParam ≠ 0 ∧ changed.dhParam ≠ state.blufiSec ∧
            next = (state.withBlock changed.dhParam
              (some (.dhParam fresh))).withSecurity changed)) := by
  rcases state.heap.malloc_cases allocated (.dhParam fresh) with
    failed | ⟨address, addressNotNull, inRange, free, succeeded⟩
  · rw [failed]
    obtain ⟨changed, put, _, isNull, sameLength, sameShareLen⟩ :=
      sec.put_dhParam 0 (by decide)
    exact ⟨_, changed,
      SecurityState.modify_of_live state _ notNull live put, sameLength,
      sameShareLen, Or.inl ⟨isNull, rfl⟩⟩
  · rw [succeeded]
    obtain ⟨changed, put, _, isAddress, sameLength, sameShareLen⟩ :=
      sec.put_dhParam address inRange
    have apart : address ≠ state.blufiSec := by
      intro same
      rw [same, live] at free
      cases free
    have stillLive := SecurityState.live_withBlock apart live
      (some (.dhParam fresh))
    have modified := SecurityState.modify_of_live
      (state.withBlock address (some (.dhParam fresh)))
      (·.put dhParamAt (encode 4 address)) notNull stillLive put
    refine ⟨_, changed, modified, sameLength, sameShareLen,
      Or.inr ⟨?_, ?_, ?_⟩⟩
    · rw [isAddress]
      exact addressNotNull
    · rw [isAddress]
      exact apart
    · rw [isAddress]

/-! ## The block of parameters -/

/-- `blufi_sec` and `dh_param` are live. -/
structure ParamLive (state : SecurityState Dhm Aes)
    (sec : BlufiSecurity Dhm Aes) (content : List UInt8) : Prop where
  notNull : state.blufiSec ≠ 0
  live : state.heap.block state.blufiSec = some (.security sec)
  hasParam : sec.dhParam ≠ 0
  paramLive : state.heap.block sec.dhParam = some (.dhParam content)

section Param

variable {state : SecurityState Dhm Aes} {sec : BlufiSecurity Dhm Aes}
  {content : List UInt8}

theorem ParamLive.apart (live : ParamLive state sec content) :
    sec.dhParam ≠ state.blufiSec := by
  intro same
  have paramLive := live.paramLive
  rw [same, live.live] at paramLive
  cases paramLive

theorem ParamLive.copyToDhParam {source : List UInt8}
    (live : ParamLive state sec content)
    (fits : source.length ≤ content.length) :
    copyToDhParam state.heap sec.dhParam source =
        .ok (state.withBlock sec.dhParam
          (some (.dhParam (overlay source content)))).heap ∧
      ParamLive (state.withBlock sec.dhParam
        (some (.dhParam (overlay source content)))) sec
        (overlay source content) := by
  refine ⟨?_, live.notNull,
    SecurityState.live_withBlock live.apart live.live _, live.hasParam,
    Function.update_self _ _ _⟩
  rw [Blufi.copyToDhParam, Heap.load_of_live live.hasParam live.paramLive]
  simp only [bind, Except.bind, if_pos fits,
    Heap.store_of_live live.hasParam live.paramLive]
  rfl

/-- The context may change while the parameters are live. -/
theorem ParamLive.withDhm (live : ParamLive state sec content) (dhm : Dhm) :
    state.modify (fun found => .ok { found with dhm }) =
        .ok (state.withSecurity { sec with dhm }) ∧
      ParamLive (state.withSecurity { sec with dhm }) { sec with dhm }
        content := by
  refine ⟨SecurityState.modify_of_live state _ live.notNull live.live rfl,
    live.notNull, Function.update_self _ _ _, live.hasParam, ?_⟩
  exact (Function.update_of_ne live.apart _ _).trans live.paramLive

theorem ParamLive.freeDhParam (live : ParamLive state sec content) :
    ∃ changed,
      state.freeDhParam =
          .ok ((state.withBlock sec.dhParam none).withSecurity changed) ∧
        changed.dhm = sec.dhm ∧ changed.dhParam = 0 ∧
        changed.dhParamLen = sec.dhParamLen ∧
        changed.shareLen = sec.shareLen := by
  obtain ⟨changed, put, sameMembers⟩ := sec.put_dhParam 0 (by decide)
  refine ⟨changed, ?_, sameMembers⟩
  rw [SecurityState.freeDhParam,
    SecurityState.security_of_live live.notNull live.live]
  simp only [bind, Except.bind,
    Heap.free_of_live live.hasParam live.paramLive]
  exact SecurityState.modify_of_live (state.withBlock sec.dhParam none) _
    live.notNull (SecurityState.live_withBlock live.apart live.live none)
    put

end Param

/-! ## The two calls that write the keys -/

section Calls

variable {mbedtls : Mbedtls Dhm Aes Env} {state : SecurityState Dhm Aes}
  {sec : BlufiSecurity Dhm Aes} {env : Env}

/-- A public key that is stored is made. -/
theorem makePublic_of_put {made : Written Dhm}
    {stored : BlufiSecurity Dhm Aes} (notNull : state.blufiSec ≠ 0)
    (live : state.heap.block state.blufiSec = some (.security sec))
    (isMade : mbedtls.dhmMakePublic env sec.dhm (mbedtls.sizeP sec.dhm)
      (mbedtls.sizeP sec.dhm) = made)
    (put : sec.put selfPublicKeyAt made.output = .ok stored) :
    makePublic mbedtls state env =
      .ok (state.withSecurity { stored with dhm := made.dhm },
        made.ret) := by
  let change : BlufiSecurity Dhm Aes →
      Except Fault (BlufiSecurity Dhm Aes) := fun sec => do
    let stored ← sec.put selfPublicKeyAt made.output
    return { stored with dhm := made.dhm }
  have changes : change sec = .ok { stored with dhm := made.dhm } := by
    simp only [change, put, bind, Except.bind]
    rfl
  have modified :=
    SecurityState.modify_of_live state change notNull live changes
  rw [makePublic, SecurityState.security_of_live notNull live]
  simp only [change, bind, Except.bind] at modified ⊢
  rw [isMade, modified]
  rfl

/-- A secret that is stored, and its length, are computed. -/
theorem calcSecret_of_put {secret : WrittenSecret Dhm}
    {measured stored : BlufiSecurity Dhm Aes}
    (notNull : state.blufiSec ≠ 0)
    (live : state.heap.block state.blufiSec = some (.security sec))
    (isSecret :
      mbedtls.dhmCalcSecret env sec.dhm shareKeyBitLen = secret)
    (isMeasured : sec.putShareLen secret.olen = .ok measured)
    (put : measured.put shareKeyAt secret.output = .ok stored) :
    calcSecret mbedtls state env =
      .ok (state.withSecurity { stored with dhm := secret.dhm }) := by
  let change : BlufiSecurity Dhm Aes →
      Except Fault (BlufiSecurity Dhm Aes) := fun sec => do
    let measured ← sec.putShareLen secret.olen
    let stored ← measured.put shareKeyAt secret.output
    return { stored with dhm := secret.dhm }
  have changes : change sec = .ok { stored with dhm := secret.dhm } := by
    simp only [change, isMeasured, put, bind, Except.bind]
    rfl
  have modified :=
    SecurityState.modify_of_live state change notNull live changes
  rw [calcSecret, SecurityState.security_of_live notNull live]
  simp only [change, bind, Except.bind] at modified ⊢
  rw [isSecret, modified]

end Calls

end Esp32Source.Blufi
