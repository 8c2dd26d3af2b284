import Esp32Source.Machine.History
import Esp32Source.Memory.Heap
import Esp32Source.Memory.Word

/-!
# BLUFI security

`blufi_security.c` negotiates a key with the phone and encrypts with it.  Its
state is the global pointer `blufi_sec` to a `struct blufi_security` on the
heap, which in turn points to the block `dh_param` while parameters are being
received.

The members in front of the two mbedTLS contexts are kept in memory order as
`raw`, so that bytes written past the end of an array land in the members
behind it.  A write past the end of `raw` is a fault.

The mbedTLS functions are parameters.  What their documentation promises
about the lengths they write is collected in `Mbedtls.Documented`.
-/

namespace Esp32Source.Blufi

open Memory Machine

/-! ## mbedTLS -/

inductive CryptMode where
  | encrypt
  | decrypt
  deriving DecidableEq, Repr

/-- The result of a function that writes to `output`: its return value, the
context it leaves, and the bytes it writes from the start of `output`. -/
structure Written (Dhm : Type) where
  ret : Int
  dhm : Dhm
  output : List UInt8

/-- The result of `mbedtls_dhm_calc_secret`, with the length that is stored at
`olen`, if any, before the output is written. -/
structure WrittenSecret (Dhm : Type) extends Written Dhm where
  olen : Option Nat

/-- The functions of mbedTLS that are called.  `Env` stands for what they
depend on besides their arguments: random numbers and free memory. -/
structure Mbedtls (Dhm Aes Env : Type) where
  dhmInit : Dhm
  aesInit : Aes
  /-- `mbedtls_dhm_read_params` on the bytes between its two pointers -/
  dhmReadParams : Env → Dhm → List UInt8 → Int × Dhm
  /-- `mbedtls_mpi_size` of the prime `P` -/
  sizeP : Dhm → Nat
  /-- `mbedtls_dhm_make_public` with `x_size` and `olen` -/
  dhmMakePublic : Env → Dhm → Nat → Nat → Written Dhm
  /-- `mbedtls_dhm_calc_secret` with `output_size` -/
  dhmCalcSecret : Env → Dhm → Nat → WrittenSecret Dhm
  md5 : Env → List UInt8 → Int × List UInt8
  /-- `mbedtls_aes_setkey_enc` with a number of key bits -/
  aesSetkeyEnc : Aes → List UInt8 → Nat → Aes
  /-- `mbedtls_aes_crypt_cfb128` with an offset, an initial vector and the
  input -/
  aesCryptCfb128 :
    Aes → CryptMode → Nat → List UInt8 → List UInt8 → Int × List UInt8

/-- The documented lengths. -/
structure Mbedtls.Documented {Dhm Aes Env : Type}
    (mbedtls : Mbedtls Dhm Aes Env) : Prop where
  makePublic_length : ∀ env dhm xSize olen,
    (mbedtls.dhmMakePublic env dhm xSize olen).output.length ≤ olen
  makePublic_sizeP : ∀ env dhm xSize olen,
    mbedtls.sizeP (mbedtls.dhmMakePublic env dhm xSize olen).dhm =
      mbedtls.sizeP dhm
  calcSecret_length : ∀ env dhm outputSize,
    (mbedtls.dhmCalcSecret env dhm outputSize).output.length ≤
      mbedtls.sizeP dhm
  calcSecret_olen : ∀ env dhm outputSize olen,
    (mbedtls.dhmCalcSecret env dhm outputSize).olen = some olen →
      olen ≤ mbedtls.sizeP dhm
  md5_length : ∀ env input, (mbedtls.md5 env input).2.length ≤ 16

/-! ## The data of the module -/

/-- `struct blufi_security` -/
structure BlufiSecurity (Dhm Aes : Type) where
  raw : Buffer 300
  dhm : Dhm
  aes : Aes

def selfPublicKeyAt : Nat := 0
def shareKeyAt : Nat := 128
def shareLenAt : Nat := 256
def pskAt : Nat := 260
def dhParamAt : Nat := 276
def dhParamLenAt : Nat := 280
def ivAt : Nat := 284

def shareKeyBitLen : Nat := 1024

section Members

variable {Dhm Aes : Type} (sec : BlufiSecurity Dhm Aes)

def BlufiSecurity.shareLen : Nat := decode (sec.raw.window shareLenAt 4)
def BlufiSecurity.psk : List UInt8 := sec.raw.window pskAt 16
def BlufiSecurity.dhParam : Nat := decode (sec.raw.window dhParamAt 4)
def BlufiSecurity.dhParamLen : Nat :=
  decode (sec.raw.window dhParamLenAt 4)
def BlufiSecurity.iv : List UInt8 := sec.raw.window ivAt 16

/-- Write bytes that start at one of the members. -/
def BlufiSecurity.put (position : Nat) (source : List UInt8) :
    Except Fault (BlufiSecurity Dhm Aes) := do
  let raw ← sec.raw.store position source
  return { sec with raw }

/-- Store a length in `share_len`, if there is one to store. -/
def BlufiSecurity.putShareLen (length : Option Nat) :
    Except Fault (BlufiSecurity Dhm Aes) :=
  match length with
  | some length => sec.put shareLenAt (encode 4 length)
  | none => .ok sec

end Members

/-- What `malloc` was called for. -/
inductive Block (Dhm Aes : Type) where
  | security (sec : BlufiSecurity Dhm Aes)
  | dhParam (content : List UInt8)

structure SecurityState (Dhm Aes : Type) where
  heap : Heap (Block Dhm Aes)
  blufiSec : Nat

/-- The message behind a data pointer: what memory holds from there on, and
the length that the stack states. -/
structure Message where
  data : Nat → UInt8
  len : Nat

/-- The `length` bytes behind the type of a message. -/
def Message.params (message : Message) (length : Nat) : List UInt8 :=
  (List.range length).map fun index => message.data (1 + index)

inductive ErrorState where
  | initSecurityError
  | dhMallocError
  | dhParamError
  | readParamError
  | makePublicError
  | calcMd5Error
  deriving DecidableEq, Repr

/-- What a negotiation message leads to: the reported error, `*output_len`
where an output is returned, and how many bytes of the message were read. -/
structure NegotiateReply where
  report : Option ErrorState := none
  outputLen : Option Nat := none
  dataRead : Nat := 1
  deriving DecidableEq, Repr

inductive SecurityEvent (Env : Type) where
  | bleConnect (allocated : Option Nat)
  | bleDisconnect
  | negotiate (message : Message) (allocated : Option Nat) (env : Env)
  | crypt (mode : CryptMode) (iv8 : UInt8) (cryptData : List UInt8)

inductive SecurityReply where
  | done
  | negotiated (reply : NegotiateReply)
  | crypted (result : Int) (cryptData : List UInt8)
  deriving DecidableEq, Repr

/-! ## The functions -/

section Functions

variable {Dhm Aes Env : Type} (mbedtls : Mbedtls Dhm Aes Env)

/-- Dereference `blufi_sec`. -/
def SecurityState.security (state : SecurityState Dhm Aes) :
    Except Fault (BlufiSecurity Dhm Aes) := do
  match ← state.heap.load state.blufiSec with
  | .security sec => return sec
  | .dhParam _ => .error .wrongBlock

/-- Change the members of `*blufi_sec`. -/
def SecurityState.modify (state : SecurityState Dhm Aes)
    (change : BlufiSecurity Dhm Aes →
      Except Fault (BlufiSecurity Dhm Aes)) :
    Except Fault (SecurityState Dhm Aes) := do
  let sec ← state.security
  let changed ← change sec
  let heap ← state.heap.store state.blufiSec (.security changed)
  return { state with heap }

/-- `free(blufi_sec->dh_param); blufi_sec->dh_param = NULL;` -/
def SecurityState.freeDhParam (state : SecurityState Dhm Aes) :
    Except Fault (SecurityState Dhm Aes) := do
  let sec ← state.security
  let heap ← state.heap.free sec.dhParam
  SecurityState.modify { state with heap } (·.put dhParamAt (encode 4 0))

/-- The same under `if (blufi_sec->dh_param)`. -/
def SecurityState.releaseDhParam (state : SecurityState Dhm Aes) :
    Except Fault (SecurityState Dhm Aes) := do
  let sec ← state.security
  if sec.dhParam ≠ 0 then state.freeDhParam else return state

/-- The case of `SEC_TYPE_DH_PARAM_LEN`. -/
def dhParamLenCase (state : SecurityState Dhm Aes) (message : Message)
    (allocated : Option Nat) :
    Except Fault (SecurityState Dhm Aes × NegotiateReply) := do
  let length := (message.data 1).toNat * 256 + (message.data 2).toNat
  let state ← state.modify (·.put dhParamLenAt (encode 4 length))
  let state ← state.releaseDhParam
  -- the block is written before it is read, its first content is not seen
  let result :=
    state.heap.malloc allocated (.dhParam (List.replicate length 0))
  let pointer := result.2
  let state ← SecurityState.modify { state with heap := result.1 }
    (·.put dhParamAt (encode 4 pointer))
  let report := if pointer = 0 then some .dhMallocError else none
  return (state, { report, dataRead := 3 })

/-- `memcpy(dh_param, source, n)` -/
def copyToDhParam (heap : Heap (Block Dhm Aes)) (pointer : Nat)
    (source : List UInt8) : Except Fault (Heap (Block Dhm Aes)) := do
  match ← heap.load pointer with
  | .security _ => .error .wrongBlock
  | .dhParam content =>
      if source.length ≤ content.length then
        heap.store pointer (.dhParam (overlay source content))
      else .error .outOfBounds

/-- The call of `mbedtls_dhm_make_public`, with its return value. -/
def makePublic (state : SecurityState Dhm Aes) (env : Env) :
    Except Fault (SecurityState Dhm Aes × Int) := do
  let sec ← state.security
  let size := mbedtls.sizeP sec.dhm
  let made := mbedtls.dhmMakePublic env sec.dhm size size
  let state ← state.modify fun sec => do
    let stored ← sec.put selfPublicKeyAt made.output
    return { stored with dhm := made.dhm }
  return (state, made.ret)

/-- The call of `mbedtls_dhm_calc_secret`, whose return value is not used. -/
def calcSecret (state : SecurityState Dhm Aes) (env : Env) :
    Except Fault (SecurityState Dhm Aes) := do
  let sec ← state.security
  let secret := mbedtls.dhmCalcSecret env sec.dhm shareKeyBitLen
  state.modify fun sec => do
    let measured ← sec.putShareLen secret.olen
    let stored ← measured.put shareKeyAt secret.output
    return { stored with dhm := secret.dhm }

/-- The call of `mbedtls_md5`, with its return value. -/
def hashSecret (state : SecurityState Dhm Aes) (env : Env) :
    Except Fault (SecurityState Dhm Aes × Int) := do
  let sec ← state.security
  let shared ← sec.raw.load shareKeyAt sec.shareLen
  let digest := mbedtls.md5 env shared
  let state ← state.modify (·.put pskAt digest.2)
  return (state, digest.1)

/-- The call of `mbedtls_aes_setkey_enc`. -/
def setKey (state : SecurityState Dhm Aes) :
    Except Fault (SecurityState Dhm Aes) :=
  state.modify fun sec =>
    .ok { sec with aes := mbedtls.aesSetkeyEnc sec.aes sec.psk 128 }

/-- From `mbedtls_dhm_make_public` to the end of the case
`SEC_TYPE_DH_PARAM_DATA`. -/
def keyExchange (state : SecurityState Dhm Aes) (env : Env)
    (dataRead : Nat) :
    Except Fault (SecurityState Dhm Aes × NegotiateReply) := do
  let (state, ret) ← makePublic mbedtls state env
  if ret ≠ 0 then
    return (state, { report := some .makePublicError, dataRead })
  else
    let state ← calcSecret mbedtls state env
    let (state, ret) ← hashSecret mbedtls state env
    if ret ≠ 0 then
      return (state, { report := some .calcMd5Error, dataRead })
    else
      let state ← setKey mbedtls state
      let sec ← state.security
      return (state,
        { outputLen := some (mbedtls.sizeP sec.dhm), dataRead })

/-- The case of `SEC_TYPE_DH_PARAM_DATA`. -/
def dhParamDataCase (state : SecurityState Dhm Aes) (message : Message)
    (env : Env) :
    Except Fault (SecurityState Dhm Aes × NegotiateReply) := do
  let sec ← state.security
  if sec.dhParam = 0 then
    return (state, { report := some .dhParamError })
  else
    let dataRead := 1 + sec.dhParamLen
    let params := message.params sec.dhParamLen
    let heap ← copyToDhParam state.heap sec.dhParam params
    let result := mbedtls.dhmReadParams env sec.dhm params
    let state ← SecurityState.modify { state with heap }
      fun sec => .ok { sec with dhm := result.2 }
    if result.1 ≠ 0 then
      return (state, { report := some .readParamError, dataRead })
    else
      let state ← state.freeDhParam
      keyExchange mbedtls state env dataRead

def secTypeDhParamLen : UInt8 := 0
def secTypeDhParamData : UInt8 := 1

def blufiDhNegotiateDataHandler (state : SecurityState Dhm Aes)
    (message : Message) (allocated : Option Nat) (env : Env) :
    Except Fault (SecurityState Dhm Aes × NegotiateReply) :=
  let type := message.data 0
  if state.blufiSec = 0 then
    .ok (state, { report := some .initSecurityError })
  else if type = secTypeDhParamLen then
    dhParamLenCase state message allocated
  else if type = secTypeDhParamData then
    dhParamDataCase mbedtls state message env
  else .ok (state, {})

/-- `blufi_aes_encrypt` and `blufi_aes_decrypt`, which differ in the mode. -/
def blufiAesCrypt (mode : CryptMode) (state : SecurityState Dhm Aes)
    (iv8 : UInt8) (cryptData : List UInt8) :
    Except Fault (Int × List UInt8) := do
  let sec ← state.security
  let iv0 := iv8 :: sec.iv.drop 1
  let (ret, data) := mbedtls.aesCryptCfb128 sec.aes mode 0 iv0 cryptData
  if ret ≠ 0 then return (-1, data) else return (cryptData.length, data)

def blufiAesEncrypt (state : SecurityState Dhm Aes) (iv8 : UInt8)
    (cryptData : List UInt8) : Except Fault (Int × List UInt8) :=
  blufiAesCrypt mbedtls .encrypt state iv8 cryptData

def blufiAesDecrypt (state : SecurityState Dhm Aes) (iv8 : UInt8)
    (cryptData : List UInt8) : Except Fault (Int × List UInt8) :=
  blufiAesCrypt mbedtls .decrypt state iv8 cryptData

/-- The callbacks `encrypt_func` and `decrypt_func`. -/
def cryptFunc : CryptMode → SecurityState Dhm Aes → UInt8 → List UInt8 →
    Except Fault (Int × List UInt8)
  | .encrypt => blufiAesEncrypt mbedtls
  | .decrypt => blufiAesDecrypt mbedtls

def blufiSecurityInit (state : SecurityState Dhm Aes)
    (allocated : Option Nat) : SecurityState Dhm Aes :=
  let (heap, blufiSec) := state.heap.malloc allocated
    (.security { raw := Buffer.zero 300, dhm := mbedtls.dhmInit,
                 aes := mbedtls.aesInit })
  { heap, blufiSec }

def blufiSecurityDeinit (state : SecurityState Dhm Aes) :
    Except Fault (SecurityState Dhm Aes) :=
  if state.blufiSec = 0 then .ok state
  else do
    let state ← state.releaseDhParam
    let state ← state.modify fun sec =>
      .ok { sec with raw := Buffer.zero 300 }
    let heap ← state.heap.free state.blufiSec
    return { heap, blufiSec := 0 }

def SecurityState.handle (state : SecurityState Dhm Aes) :
    SecurityEvent Env →
      Except Fault (SecurityState Dhm Aes × SecurityReply)
  | .bleConnect allocated =>
      .ok (blufiSecurityInit mbedtls state allocated, .done)
  | .bleDisconnect => do return (← blufiSecurityDeinit state, .done)
  | .negotiate message allocated env => do
      let (state, reply) ←
        blufiDhNegotiateDataHandler mbedtls state message allocated env
      return (state, .negotiated reply)
  | .crypt mode iv8 cryptData => do
      let (result, data) ← cryptFunc mbedtls mode state iv8 cryptData
      return (state, .crypted result data)

def SecurityState.initial : SecurityState Dhm Aes where
  heap := Heap.empty
  blufiSec := 0

def securityAfter (history : List (SecurityEvent Env)) :
    Except Fault (SecurityState Dhm Aes) :=
  after (SecurityState.handle mbedtls) SecurityState.initial history

end Functions

end Esp32Source.Blufi
