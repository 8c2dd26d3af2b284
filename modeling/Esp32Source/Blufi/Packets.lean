import Esp32Source.Blufi.InitialVector
import Esp32Source.Blufi.Keying
import Esp32Source.Cipher.Aes
import Esp32Source.Cipher.Feedback

/-!
# Packets under a key

Each call of `blufi_aes_encrypt` or `blufi_aes_decrypt` starts the feedback
mode anew, from a copy of the member `iv` with the packet's `iv8` in front.
Nothing of it remains when the call returns, so that packets may be lost or
come in any order, and a decryption with the same `iv8` undoes an encryption.

What the calls return is fixed by the key alone as long as `iv` is zero.  The
last section gives parameters with a prime so long that the public key runs
over `iv`: the same key then encrypts differently.
-/

namespace Esp32Source.Blufi

open Memory Machine Cipher

variable {Dhm Aes Env : Type} {mbedtls : Mbedtls Dhm Aes Env}

/-! ## The cipher -/

/-- The feedback mode with 128 bits, in one of its directions. -/
def cfb128 (block : AesBlock → AesBlock) (mode : CryptMode)
    (feedback : Feedback UInt8 16) (input : List UInt8) : List UInt8 :=
  match mode with
  | .encrypt => cfbEncrypt (· ^^^ ·) block feedback input
  | .decrypt => cfbDecrypt (· ^^^ ·) block feedback input

/-- `mbedtls_aes_crypt_cfb128` is the feedback mode of `block` under the key
that `mbedtls_aes_setkey_enc` has set. -/
def Mbedtls.CryptsCfb128 (mbedtls : Mbedtls Dhm Aes Env)
    (block : AesBlock → AesBlock → AesBlock) : Prop :=
  ∀ former (key iv : AesBlock) mode input,
    mbedtls.aesCryptCfb128
        (mbedtls.aesSetkeyEnc former key.toList 128) mode 0 iv.toList
        input =
      (0, cfb128 (block key) mode (Feedback.start iv) input)

theorem length_cfb128 (block : AesBlock → AesBlock) (mode : CryptMode)
    (feedback : Feedback UInt8 16) (input : List UInt8) :
    (cfb128 block mode feedback input).length = input.length := by
  cases mode with
  | encrypt => exact length_cfbEncrypt _ block feedback input
  | decrypt => exact length_cfbDecrypt _ block feedback input

theorem cfb128_decrypt_encrypt (block : AesBlock → AesBlock)
    (feedback : Feedback UInt8 16) (input : List UInt8) :
    cfb128 block .decrypt feedback (cfb128 block .encrypt feedback input) =
      input := by
  apply cfbDecrypt_cfbEncrypt
  intro mask plain
  rw [← UInt8.xor_assoc, UInt8.xor_self, UInt8.zero_xor]

/-! ## Sequences of calls -/

/-- A call of one of the two functions. -/
structure PacketCall where
  mode : CryptMode
  iv8 : UInt8
  cryptData : List UInt8

/-- The results of calls, one after the other. -/
def SecurityState.crypts (mbedtls : Mbedtls Dhm Aes Env) :
    SecurityState Dhm Aes → List PacketCall →
      Except Fault (SecurityState Dhm Aes × List SecurityReply)
  | state, [] => .ok (state, [])
  | state, call :: rest => do
      let (state, reply) ← state.handle mbedtls
        (.crypt call.mode call.iv8 call.cryptData)
      let (state, replies) ← state.crypts mbedtls rest
      return (state, reply :: replies)

/-- Whatever calls are made, each returns the length of its data and what
`result` makes of them, and the next call finds the state as it was; decrypting
with an `iv8` undoes encrypting with it. -/
structure PacketsFixed (mbedtls : Mbedtls Dhm Aes Env)
    (state : SecurityState Dhm Aes)
    (result : CryptMode → UInt8 → List UInt8 → List UInt8) : Prop where
  calls : ∀ calls,
    state.crypts mbedtls calls =
      .ok (state, calls.map fun call =>
        .crypted call.cryptData.length
          (result call.mode call.iv8 call.cryptData))
  length : ∀ mode iv8 cryptData,
    (result mode iv8 cryptData).length = cryptData.length
  roundTrip : ∀ iv8 cryptData,
    result .decrypt iv8 (result .encrypt iv8 cryptData) = cryptData

/-- What the two functions make of data under a key. -/
def packetText (block : AesBlock → AesBlock) (mode : CryptMode)
    (iv8 : UInt8) (cryptData : List UInt8) : List UInt8 :=
  cfb128 block mode
    (Feedback.start ((Vector.replicate 16 0).set 0 iv8)) cryptData

/-- When each call leaves the state and returns what its arguments say, so
does a sequence of calls. -/
theorem crypts_eq_ok {state : SecurityState Dhm Aes}
    {result : CryptMode → UInt8 → List UInt8 → List UInt8}
    (each : ∀ mode iv8 cryptData,
      state.handle mbedtls (.crypt mode iv8 cryptData) =
        .ok (state,
          .crypted cryptData.length (result mode iv8 cryptData)))
    (calls : List PacketCall) :
    state.crypts mbedtls calls =
      .ok (state, calls.map fun call =>
        .crypted call.cryptData.length
          (result call.mode call.iv8 call.cryptData)) := by
  induction calls with
  | nil => rfl
  | cons call rest inductionHypothesis =>
      rw [SecurityState.crypts, each]
      simp only [bind, Except.bind]
      rw [inductionHypothesis]
      rfl

/-- The copy of `iv` that a call starts from. -/
theorem ZeroIv.iv0 {sec : BlufiSecurity Dhm Aes} (zero : ZeroIv sec)
    (iv8 : UInt8) :
    iv8 :: sec.iv.drop 1 =
      ((Vector.replicate 16 0).set 0 iv8 : AesBlock).toList := by
  rw [zero]
  rfl

theorem blufiAesCrypt_of_success {state : SecurityState Dhm Aes}
    {sec : BlufiSecurity Dhm Aes} (isSec : state.security = .ok sec)
    {mode : CryptMode} {iv8 : UInt8} {cryptData output : List UInt8}
    (crypted :
      mbedtls.aesCryptCfb128 sec.aes mode 0 (iv8 :: sec.iv.drop 1)
        cryptData = (0, output)) :
    blufiAesCrypt mbedtls mode state iv8 cryptData =
      .ok (cryptData.length, output) := by
  have returns (result : Int × List UInt8)
      (isResult : mbedtls.aesCryptCfb128 sec.aes mode 0
        (iv8 :: sec.iv.drop 1) cryptData = result) :
      blufiAesCrypt mbedtls mode state iv8 cryptData =
        if result.1 ≠ 0 then .ok (-1, result.2)
        else .ok (cryptData.length, result.2) := by
    rw [← isResult, blufiAesCrypt, isSec]
    rfl
  exact returns (0, output) crypted

/-- One call under a key. -/
theorem handle_crypt {block : AesBlock → AesBlock → AesBlock}
    (cfb : mbedtls.CryptsCfb128 block) {state : SecurityState Dhm Aes}
    {sec : BlufiSecurity Dhm Aes} (isSec : state.security = .ok sec)
    {former : Aes} {key : AesBlock}
    (isSet : sec.aes = mbedtls.aesSetkeyEnc former key.toList 128)
    (zero : ZeroIv sec) (mode : CryptMode) (iv8 : UInt8)
    (cryptData : List UInt8) :
    state.handle mbedtls (.crypt mode iv8 cryptData) =
      .ok (state, .crypted cryptData.length
        (packetText (block key) mode iv8 cryptData)) := by
  have crypted := cfb former key ((Vector.replicate 16 0).set 0 iv8) mode
    cryptData
  rw [← isSet, ← zero.iv0] at crypted
  rw [SecurityState.handle, cryptFunc_eq,
    blufiAesCrypt_of_success isSec crypted]
  rfl

/-- In every run whose accepted primes leave `iv` alone, and in every state
with a key that the run reaches, what the calls make of their data is fixed by
that key. -/
theorem packets_fixed_by_key (documented : mbedtls.Documented)
    {block : AesBlock → AesBlock → AesBlock}
    (cfb : mbedtls.CryptsCfb128 block)
    {history : List (SecurityEvent Env)}
    (spares : AtEveryStep (SparesIv mbedtls) history)
    (keyed : Keyed mbedtls history) {state : SecurityState Dhm Aes}
    (reached : securityAfter mbedtls history = .ok state) :
    ∃ sec former key,
      state.security = .ok sec ∧
        sec.aes = mbedtls.aesSetkeyEnc former (key : AesBlock).toList 128 ∧
        PacketsFixed mbedtls state (packetText (block key)) := by
  have holds : HoldsAes
      (fun aes => ∃ former key, aes =
        mbedtls.aesSetkeyEnc former (key : AesBlock).toList 128) state := by
    refine keyed.holdsAes ?_ reached
    intro former psk length
    exact ⟨former, ⟨psk.toArray, length⟩, rfl⟩
  obtain ⟨sec, isSec, former, key, isSet⟩ := holds
  have zero : ZeroIv sec :=
    keepsIv_of_spares documented spares reached sec isSec
  refine ⟨sec, former, key, isSec, isSet, ?_, ?_, ?_⟩
  · exact crypts_eq_ok (handle_crypt cfb isSec isSet zero)
  · intro mode iv8 cryptData
    exact length_cfb128 _ mode _ cryptData
  · intro iv8 cryptData
    exact cfb128_decrypt_encrypt _ _ cryptData

/-! ## A prime that runs over the vector -/

def toBlock (bytes : List UInt8) : AesBlock :=
  Vector.ofFn fun index => bytes.getD index.val 0

/-- The library with AES as its block function. -/
def aesMbedtls : Mbedtls DhContext (List UInt8) Nat :=
  { textbookMbedtls with
    aesCryptCfb128 := fun key mode offset iv input =>
      (0, cfb128 (aesEncrypt (toBlock key)) mode
        { register := toBlock iv, offset := Fin.ofNat 16 offset } input) }

theorem aesMbedtls_documented : aesMbedtls.Documented where
  makePublic_length := textbookMbedtls_documented.makePublic_length
  makePublic_sizeP := textbookMbedtls_documented.makePublic_sizeP
  calcSecret_length := textbookMbedtls_documented.calcSecret_length
  calcSecret_olen := textbookMbedtls_documented.calcSecret_olen
  md5_length := textbookMbedtls_documented.md5_length

theorem toBlock_toList (block : AesBlock) :
    toBlock block.toList = block := by
  apply Vector.ext
  intro index inside
  simp [toBlock]

theorem aesMbedtls_cryptsCfb128 : aesMbedtls.CryptsCfb128 aesEncrypt := by
  intro former key iv mode input
  have sameKey := toBlock_toList key
  have sameIv := toBlock_toList iv
  change (0, cfb128 (aesEncrypt (toBlock key.toList)) mode
    { register := toBlock iv.toList, offset := Fin.ofNat 16 0 } input) = _
  rw [sameKey, sameIv]
  rfl

/-- The square of an odd number, with the generator 2 and the number itself as
the public key of the phone: the secret of every exponent from 2 on is 0. -/
def squareParams (root : Nat) : List UInt8 :=
  dhParams (root ^ 2) 2 root

/-- A key exchange with such parameters; the random exponent is 3. -/
def keyExchangeWith (root : Nat) : List (SecurityEvent Nat) :=
  (connectionWith (squareParams root)).take 3

/-- The square of this number has 300 bytes. -/
def longRoot : Nat := 2 ^ 1199 + 1

/-- The negotiation is complete when its last message is not reported. -/
theorem keyed_of_report {history : List (SecurityEvent Env)}
    {message : Message} {allocated : Option Nat} {env : Env}
    (isData : message.data 0 = secTypeDhParamData)
    (noReport :
      (securityAfter mbedtls history >>= fun state =>
        blufiDhNegotiateDataHandler mbedtls state message allocated
          env).map (fun result => result.2.report) = .ok none) :
    Keyed mbedtls (history ++ [.negotiate message allocated env]) := by
  obtain ⟨⟨next, reply⟩, handled, isNone⟩ := map_eq_ok_iff.mp noReport
  obtain ⟨state, reached, negotiated⟩ := bind_eq_ok_iff.mp handled
  exact keyed_concat_iff.mpr (Or.inl
    ⟨message, allocated, env, state, next, reply, rfl, isData, reached,
      negotiated, isNone⟩)

theorem keyExchangeWith_keyed (root : Nat)
    (noReport :
      (securityAfter aesMbedtls ((keyExchangeWith root).take 2) >>=
        fun state =>
          blufiDhNegotiateDataHandler aesMbedtls state
            (dhParamDataMessage (squareParams root)) none 3).map
          (fun result => result.2.report) = .ok none) :
    Keyed aesMbedtls (keyExchangeWith root) := by
  refine keyed_of_report ?_ noReport
  rw [dhParamDataMessage, Message.ofBytes_data]
  rfl

theorem shortPrime_keyed : Keyed aesMbedtls (keyExchangeWith 5) :=
  keyExchangeWith_keyed 5 (by decide +kernel)

theorem longPrime_keyed : Keyed aesMbedtls (keyExchangeWith longRoot) :=
  keyExchangeWith_keyed longRoot (by decide +kernel)

/-- The key and the packet behind a history. -/
theorem packet_of_computed {history : List (SecurityEvent Env)} {key : Aes}
    {iv8 : UInt8} {data : List UInt8} {output : Int × List UInt8}
    (isKey :
      (securityAfter mbedtls history >>= SecurityState.security).map
        BlufiSecurity.aes = .ok key)
    (encrypted :
      (securityAfter mbedtls history >>= fun state =>
        blufiAesEncrypt mbedtls state iv8 data) = .ok output) :
    ∃ state sec,
      securityAfter mbedtls history = .ok state ∧
        state.security = .ok sec ∧ sec.aes = key ∧
        cryptFunc mbedtls .encrypt state iv8 data = .ok output := by
  obtain ⟨sec, found, isAes⟩ := map_eq_ok_iff.mp isKey
  obtain ⟨state, reached, isSec⟩ := bind_eq_ok_iff.mp found
  obtain ⟨same, reachedSame, isOutput⟩ := bind_eq_ok_iff.mp encrypted
  cases reached.symm.trans reachedSame
  exact ⟨state, sec, reached, isSec, isAes, isOutput⟩

/-- The two exchanges leave the same key, but the long prime leaves other
bytes in `iv`, and the same packet is encrypted differently. -/
theorem longPrime_changes_packets :
    aesMbedtls.Documented ∧ aesMbedtls.CryptsCfb128 aesEncrypt ∧
      Keyed aesMbedtls (keyExchangeWith 5) ∧
      Keyed aesMbedtls (keyExchangeWith longRoot) ∧
      (securityAfter aesMbedtls (keyExchangeWith 5) >>=
        fun state => blufiAesEncrypt aesMbedtls state 0 [0, 0, 0]) =
        .ok (3, [105, 25, 237]) ∧
      (securityAfter aesMbedtls (keyExchangeWith longRoot) >>=
        fun state => blufiAesEncrypt aesMbedtls state 0 [0, 0, 0]) =
        .ok (3, [189, 162, 108]) ∧
      ¬ ∃ result : List UInt8 → CryptMode → UInt8 → List UInt8 →
          Int × List UInt8,
        ∀ history state sec former key,
          Keyed aesMbedtls history →
            securityAfter aesMbedtls history = .ok state →
              state.security = .ok sec →
                sec.aes = aesMbedtls.aesSetkeyEnc former key 128 →
                  ∀ mode iv8 cryptData,
                    cryptFunc aesMbedtls mode state iv8 cryptData =
                      .ok (result key mode iv8 cryptData) := by
  have shortPacket :
      (securityAfter aesMbedtls (keyExchangeWith 5) >>=
        fun state => blufiAesEncrypt aesMbedtls state 0 [0, 0, 0]) =
        .ok (3, [105, 25, 237]) := by
    decide +kernel
  have longPacket :
      (securityAfter aesMbedtls (keyExchangeWith longRoot) >>=
        fun state => blufiAesEncrypt aesMbedtls state 0 [0, 0, 0]) =
        .ok (3, [189, 162, 108]) := by
    decide +kernel
  have shortKey :
      (securityAfter aesMbedtls (keyExchangeWith 5) >>=
        SecurityState.security).map BlufiSecurity.aes = .ok md5Empty := by
    decide +kernel
  have longKey :
      (securityAfter aesMbedtls (keyExchangeWith longRoot) >>=
        SecurityState.security).map BlufiSecurity.aes = .ok md5Empty := by
    decide +kernel
  refine ⟨aesMbedtls_documented, aesMbedtls_cryptsCfb128, shortPrime_keyed,
    longPrime_keyed, shortPacket, longPacket, ?_⟩
  rintro ⟨result, fixed⟩
  have packet {root : Nat} {output : Int × List UInt8}
      (keyed : Keyed aesMbedtls (keyExchangeWith root))
      (isKey :
        (securityAfter aesMbedtls (keyExchangeWith root) >>=
          SecurityState.security).map BlufiSecurity.aes = .ok md5Empty)
      (encrypted :
        (securityAfter aesMbedtls (keyExchangeWith root) >>=
          fun state => blufiAesEncrypt aesMbedtls state 0 [0, 0, 0]) =
          .ok output) :
      result md5Empty .encrypt 0 [0, 0, 0] = output := by
    obtain ⟨state, sec, reached, isSec, isAes, isOutput⟩ :=
      packet_of_computed isKey encrypted
    have isResult := fixed _ state sec [] md5Empty keyed reached isSec
      isAes .encrypt 0 [0, 0, 0]
    have sameOutput := isResult.symm.trans isOutput
    injection sameOutput
  have short := packet shortPrime_keyed shortKey shortPacket
  have long := packet longPrime_keyed longKey longPacket
  have different : ((3, [105, 25, 237]) : Int × List UInt8) ≠
      (3, [189, 162, 108]) := by
    decide
  exact different (short.symm.trans long)

theorem keyExchangeWith_spares :
    AtEveryStep (SparesIv aesMbedtls) (keyExchangeWith 5) := by
  intro front event behind shape message allocated env state sec isMessage
    isData reached isSec _ _
  have whole : connectionWith (squareParams 5) =
      front ++ event :: (behind ++ [.bleDisconnect]) := by
    rw [← List.cons_append, ← List.append_assoc, ← shape]
    rfl
  exact connectionWith_sizeP 1 (by decide +kernel) (by decide) front event
    (behind ++ [.bleDisconnect]) whole message allocated env state sec
    isMessage isData reached isSec

theorem packets_fixed_by_key_shortPrime :
    ∃ state,
      securityAfter aesMbedtls (keyExchangeWith 5) = .ok state ∧
        ∃ sec former key,
          state.security = .ok sec ∧
            sec.aes = aesMbedtls.aesSetkeyEnc former
              (key : AesBlock).toList 128 ∧
            PacketsFixed aesMbedtls state (packetText (aesEncrypt key)) := by
  have returns :
      (securityAfter aesMbedtls (keyExchangeWith 5)).map
        SecurityState.blufiSec = .ok 0x3ffb1000 := by
    decide +kernel
  obtain ⟨state, reached, _⟩ := map_eq_ok_iff.mp returns
  exact ⟨state, reached,
    packets_fixed_by_key aesMbedtls_documented aesMbedtls_cryptsCfb128
      keyExchangeWith_spares shortPrime_keyed reached⟩

end Esp32Source.Blufi
