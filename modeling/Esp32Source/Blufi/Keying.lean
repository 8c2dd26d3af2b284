import Esp32Source.Blufi.Lifetime
import Esp32Source.Blufi.Structure

/-!
# Packets before the key

A packet should be encrypted or decrypted only after a key was set in the
current connection.  `blufi_aes_encrypt` and `blufi_aes_decrypt` dereference
`blufi_sec` without looking whether it is there or has a key, so they turn
down no packet; they are safe exactly where the run around them has completed
a negotiation.
-/

namespace Esp32Source.Blufi

open Memory Machine

variable {Dhm Aes Env : Type} {mbedtls : Mbedtls Dhm Aes Env}

/-! ## What keeps the key -/

/-- `blufi_sec` points to a live structure whose AES context has a key. -/
def HoldsKey (mbedtls : Mbedtls Dhm Aes Env)
    (state : SecurityState Dhm Aes) : Prop :=
  ∃ sec aes psk,
    state.security = .ok sec ∧ sec.aes = mbedtls.aesSetkeyEnc aes psk 128

theorem BlufiSecurity.put_aes {sec stored : BlufiSecurity Dhm Aes}
    {position : Nat} {source : List UInt8}
    (isStored : sec.put position source = .ok stored) :
    stored.aes = sec.aes := by
  obtain ⟨raw, _, rest⟩ := bind_eq_ok_iff.mp isStored
  cases rest
  rfl

theorem BlufiSecurity.putShareLen_aes {sec stored : BlufiSecurity Dhm Aes}
    {length : Option Nat} (isStored : sec.putShareLen length = .ok stored) :
    stored.aes = sec.aes := by
  cases length with
  | none =>
      cases isStored
      rfl
  | some length =>
      exact put_aes isStored

theorem BlufiSecurity.length_psk (sec : BlufiSecurity Dhm Aes) :
    sec.psk.length = 16 :=
  length_window (by rw [sec.raw.length_cells]; decide)

section Context

variable {good : Aes → Prop} {state next : SecurityState Dhm Aes}

/-- `blufi_sec` points to a live structure whose AES context is good. -/
def HoldsAes (good : Aes → Prop) (state : SecurityState Dhm Aes) : Prop :=
  Has (fun sec => good sec.aes) state

theorem holdsKey_of_holdsAes
    (holds : HoldsAes
      (fun aes => ∃ former psk, aes = mbedtls.aesSetkeyEnc former psk 128)
      state) : HoldsKey mbedtls state := by
  obtain ⟨sec, isSec, former, psk, isSet⟩ := holds
  exact ⟨sec, former, psk, isSec, isSet⟩

/-- What is stored in the members leaves the AES context. -/
theorem good_of_put {sec stored : BlufiSecurity Dhm Aes} {position : Nat}
    {source : List UInt8} (isGood : good sec.aes)
    (isStored : sec.put position source = .ok stored) : good stored.aes := by
  rw [BlufiSecurity.put_aes isStored]
  exact isGood

theorem keptByWords_good :
    KeptByWords (fun sec : BlufiSecurity Dhm Aes => good sec.aes) := by
  intro sec stored position number _ isGood isStored
  exact good_of_put isGood isStored

/-- A key exchange keeps a good context, and leaves one if it reports no
error. -/
theorem holdsAes_of_keyExchange
    (sets : ∀ former psk, psk.length = 16 →
      good (mbedtls.aesSetkeyEnc former psk 128))
    {env : Env} {dataRead : Nat} {reply : NegotiateReply}
    (exchanged :
      keyExchange mbedtls state env dataRead = .ok (next, reply))
    (cause : HoldsAes good state ∨ reply.report = none) :
    HoldsAes good next := by
  obtain ⟨published, publicRet, isPublished, way⟩ :=
    keyExchange_cases exchanged
  have publishedHolds (holds : HoldsAes good state) :
      HoldsAes good published := by
    refine Has.makePublic holds ?_ isPublished
    intro found stored isGood isStored
    have sameGood : good stored.aes := good_of_put isGood isStored
    exact sameGood
  rcases way with
    ⟨isNext, fails⟩ |
      ⟨_, shared, hashed, hashRet, isShared, isHashed, way⟩
  · rw [isNext]
    rcases cause with holds | noReport
    · exact publishedHolds holds
    · rw [fails] at noReport
      cases noReport
  · rcases way with ⟨isNext, fails⟩ | ⟨isKeyed, _⟩
    · rw [isNext]
      rcases cause with holds | noReport
      · have sharedHolds : HoldsAes good shared := by
          refine Has.calcSecret (publishedHolds holds) ?_ isShared
          intro found measured stored isGood isMeasured isStored
          have sameAes := BlufiSecurity.putShareLen_aes isMeasured
          rw [← sameAes] at isGood
          have sameGood : good stored.aes := good_of_put isGood isStored
          exact sameGood
        refine Has.hashSecret sharedHolds ?_ isHashed
        intro found digest stored isGood isStored
        exact good_of_put isGood isStored
      · rw [fails] at noReport
        cases noReport
    · refine has_of_setKey ?_ isKeyed
      intro found _
      exact sets found.aes found.psk found.length_psk

theorem holdsAes_of_dhParamDataCase
    (sets : ∀ former psk, psk.length = 16 →
      good (mbedtls.aesSetkeyEnc former psk 128))
    {message : Message} {env : Env} {reply : NegotiateReply}
    (handled :
      dhParamDataCase mbedtls state message env = .ok (next, reply))
    (cause : HoldsAes good state ∨ reply.report = none) :
    HoldsAes good next := by
  obtain ⟨sec, _, way⟩ := dhParamDataCase_cases handled
  rcases way with
    ⟨_, isNext, fails⟩ | ⟨_, heap, read, isCopied, isRead, way⟩
  · rw [isNext]
    rcases cause with holds | noReport
    · exact holds
    · rw [fails] at noReport
      cases noReport
  · have readHolds (holds : HoldsAes good state) : HoldsAes good read :=
      Has.readParams holds (fun _ isGood => isGood) isCopied isRead
    rcases way with ⟨isNext, fails⟩ | ⟨_, freed, isFreed, exchanged⟩
    · rw [isNext]
      rcases cause with holds | noReport
      · exact readHolds holds
      · rw [fails] at noReport
        cases noReport
    · refine holdsAes_of_keyExchange sets exchanged (cause.imp_left ?_)
      intro holds
      exact Has.freeDhParam (readHolds holds) keptByWords_good.dhParam isFreed

theorem HoldsAes.blufiDhNegotiateDataHandler
    (sets : ∀ former psk, psk.length = 16 →
      good (mbedtls.aesSetkeyEnc former psk 128))
    {message : Message} {allocated : Option Nat} {env : Env}
    {reply : NegotiateReply} (holds : HoldsAes good state)
    (handled :
      blufiDhNegotiateDataHandler mbedtls state message allocated env =
        .ok (next, reply)) :
    HoldsAes good next := by
  rcases handler_cases handled with ⟨_, isNext, _⟩ | ⟨_, way⟩
  · rw [isNext]
    exact holds
  · rcases way with ⟨_, announced⟩ | ⟨_, brought⟩ | ⟨isNext, _⟩
    · exact Has.dhParamLenCase holds keptByWords_good announced
    · exact holdsAes_of_dhParamDataCase sets brought (Or.inl holds)
    · rw [isNext]
      exact holds

/-- Only connecting and disconnecting give up a key. -/
theorem HoldsAes.handle
    (sets : ∀ former psk, psk.length = 16 →
      good (mbedtls.aesSetkeyEnc former psk 128))
    {event : SecurityEvent Env} {reply : SecurityReply}
    (holds : HoldsAes good state) (noLink : bleLink event = none)
    (handled : state.handle mbedtls event = .ok (next, reply)) :
    HoldsAes good next := by
  cases event with
  | bleConnect allocated =>
      cases noLink
  | bleDisconnect =>
      cases noLink
  | negotiate message allocated env =>
      obtain ⟨⟨handledState, handledReply⟩, negotiated, rest⟩ :=
        bind_eq_ok_iff.mp handled
      cases rest
      exact holds.blufiDhNegotiateDataHandler sets negotiated
  | crypt mode iv8 cryptData =>
      obtain ⟨result, _, rest⟩ := bind_eq_ok_iff.mp handled
      cases rest
      exact holds

end Context

/-! ## Keys -/

/-- The event is a message `SEC_TYPE_DH_PARAM_DATA` that is handled without an
error. -/
def Completes (mbedtls : Mbedtls Dhm Aes Env)
    (history : List (SecurityEvent Env)) (event : SecurityEvent Env) :
    Prop :=
  ∃ message allocated env state next reply,
    event = .negotiate message allocated env ∧
      message.data 0 = secTypeDhParamData ∧
      securityAfter mbedtls history = .ok state ∧
      blufiDhNegotiateDataHandler mbedtls state message allocated env =
        .ok (next, reply) ∧
      reply.report = none

/-- Such a message was handled in the current connection. -/
def Keyed (mbedtls : Mbedtls Dhm Aes Env)
    (history : List (SecurityEvent Env)) : Prop :=
  ∃ front event behind,
    history = front ++ event :: behind ∧
      Completes mbedtls front event ∧
      ∀ later, later ∈ behind → bleLink later = none

/-- A key of the history is one that its last event sets, or one of before
that the event leaves. -/
theorem keyed_concat_iff {history : List (SecurityEvent Env)}
    {event : SecurityEvent Env} :
    Keyed mbedtls (history ++ [event]) ↔
      Completes mbedtls history event ∨
        (bleLink event = none ∧ Keyed mbedtls history) := by
  constructor
  · intro keyed
    obtain ⟨front, chosen, behind, shape, completes, quiet⟩ := keyed
    rcases concat_eq_append_cons_iff.mp shape with
      ⟨_, sameFront, sameEvent⟩ | ⟨rest, isConcat, sameHistory⟩
    · rw [sameFront, sameEvent]
      exact Or.inl completes
    · rw [isConcat, List.forall_mem_append, List.forall_mem_singleton]
        at quiet
      exact Or.inr
        ⟨quiet.2, front, chosen, rest, sameHistory, completes, quiet.1⟩
  · intro cause
    rcases cause with
      completes | ⟨noLink, front, chosen, rest, shape, completes, quiet⟩
    · refine ⟨history, event, [], rfl, completes, ?_⟩
      intro later member
      cases member
    · refine ⟨front, chosen, rest ++ [event], ?_, completes, ?_⟩
      · rw [shape, List.append_assoc, List.cons_append]
      · rw [List.forall_mem_append, List.forall_mem_singleton]
        exact ⟨quiet, noLink⟩

theorem not_keyed_nil :
    ¬ Keyed mbedtls ([] : List (SecurityEvent Env)) := by
  intro keyed
  obtain ⟨front, event, behind, shape, _⟩ := keyed
  simp at shape

/-- A negotiation that completes leaves a key. -/
theorem Completes.holdsAes {good : Aes → Prop}
    (sets : ∀ former psk, psk.length = 16 →
      good (mbedtls.aesSetkeyEnc former psk 128))
    {history : List (SecurityEvent Env)}
    {event : SecurityEvent Env} {state next : SecurityState Dhm Aes}
    {reply : SecurityReply} (completes : Completes mbedtls history event)
    (reached : securityAfter mbedtls history = .ok state)
    (handled : state.handle mbedtls event = .ok (next, reply)) :
    HoldsAes good next := by
  obtain ⟨message, allocated, env, before, done, answer, isMessage, isData,
    reachedBefore, negotiated, noReport⟩ := completes
  subst isMessage
  cases reachedBefore.symm.trans reached
  rw [SecurityState.handle, negotiated] at handled
  cases handled
  by_cases isNull : state.blufiSec = 0
  · rw [handler_of_null isNull] at negotiated
    cases negotiated
    cases noReport
  · rw [handler_of_data isNull isData] at negotiated
    exact holdsAes_of_dhParamDataCase sets negotiated (Or.inr noReport)

/-- What a completed negotiation sets is there until the connection ends. -/
theorem Keyed.holdsAes {good : Aes → Prop}
    (sets : ∀ former psk, psk.length = 16 →
      good (mbedtls.aesSetkeyEnc former psk 128))
    {history : List (SecurityEvent Env)}
    (keyed : Keyed mbedtls history) {state : SecurityState Dhm Aes}
    (reached : securityAfter mbedtls history = .ok state) :
    HoldsAes good state := by
  refine after_induction
    (motive := fun front middle =>
      Keyed mbedtls front → HoldsAes good middle)
    ?_ ?_ reached keyed
  · intro keyedNil
    exact absurd keyedNil not_keyed_nil
  · intro front event middle next reply reachedMiddle earlier handled
      keyedNext
    rcases keyed_concat_iff.mp keyedNext with
      completes | ⟨noLink, keyedFront⟩
    · exact completes.holdsAes sets reachedMiddle handled
    · have holds := earlier keyedFront
      exact holds.handle sets noLink handled

theorem Keyed.holdsKey {history : List (SecurityEvent Env)}
    (keyed : Keyed mbedtls history) {state : SecurityState Dhm Aes}
    (reached : securityAfter mbedtls history = .ok state) :
    HoldsKey mbedtls state := by
  apply holdsKey_of_holdsAes
  refine keyed.holdsAes ?_ reached
  intro former psk _
  exact ⟨former, psk, rfl⟩

/-! ## Packets -/

/-- The packet is turned down, whatever the heap holds: `-1` is returned, the
data are left and `blufi_sec` is not dereferenced. -/
def TurnsDown (mbedtls : Mbedtls Dhm Aes Env) (mode : CryptMode)
    (state : SecurityState Dhm Aes) (iv8 : UInt8)
    (cryptData : List UInt8) : Prop :=
  ∀ heap, cryptFunc mbedtls mode { state with heap } iv8 cryptData =
    .ok (-1, cryptData)

/-- The packet comes when the structure is there with a key that was set in
the current connection, or it is turned down. -/
def GuardsPacket (mbedtls : Mbedtls Dhm Aes Env)
    (history : List (SecurityEvent Env)) (event : SecurityEvent Env) :
    Prop :=
  ∀ mode iv8 cryptData state,
    event = .crypt mode iv8 cryptData →
      securityAfter mbedtls history = .ok state →
        (HoldsKey mbedtls state ∧ Keyed mbedtls history) ∨
          TurnsDown mbedtls mode state iv8 cryptData

/-- A packet that the run comes to is preceded by a key exchange of its
connection. -/
def PacketAfterKey (mbedtls : Mbedtls Dhm Aes Env)
    (history : List (SecurityEvent Env)) (event : SecurityEvent Env) :
    Prop :=
  ∀ mode iv8 cryptData state,
    event = .crypt mode iv8 cryptData →
      securityAfter mbedtls history = .ok state →
        Keyed mbedtls history

theorem cryptFunc_eq (mode : CryptMode) (state : SecurityState Dhm Aes)
    (iv8 : UInt8) (cryptData : List UInt8) :
    cryptFunc mbedtls mode state iv8 cryptData =
      blufiAesCrypt mbedtls mode state iv8 cryptData := by
  cases mode <;> rfl

/-- Both functions dereference `blufi_sec` first. -/
theorem not_turnsDown (mode : CryptMode) (state : SecurityState Dhm Aes)
    (iv8 : UInt8) (cryptData : List UInt8) :
    ¬ TurnsDown mbedtls mode state iv8 cryptData := by
  intro turnsDown
  have refused := turnsDown Heap.empty
  rw [cryptFunc_eq] at refused
  obtain ⟨sec, isSec, _⟩ := bind_eq_ok_iff.mp refused
  obtain ⟨block, loaded, _⟩ := bind_eq_ok_iff.mp isSec
  exact Heap.load_empty state.blufiSec block loaded

theorem cryptFunc_of_null (mode : CryptMode)
    {state : SecurityState Dhm Aes} (isNull : state.blufiSec = 0)
    (iv8 : UInt8) (cryptData : List UInt8) :
    cryptFunc mbedtls mode state iv8 cryptData = .error .nullPointer := by
  have faults : state.security = .error .nullPointer := by
    rw [SecurityState.security, Heap.load, if_pos isNull]
    rfl
  rw [cryptFunc_eq, blufiAesCrypt, faults]
  rfl

/-- In every run, the packets are guarded exactly when each comes after a key
exchange of its connection; without `blufi_sec` a packet dereferences the null
pointer. -/
theorem packets_guarded_iff (history : List (SecurityEvent Env)) :
    (AtEveryStep (GuardsPacket mbedtls) history ↔
        AtEveryStep (PacketAfterKey mbedtls) history) ∧
      ∀ (state : SecurityState Dhm Aes) mode iv8 cryptData,
        state.blufiSec = 0 →
          state.handle mbedtls (.crypt mode iv8 cryptData) =
            .error .nullPointer := by
  refine ⟨atEveryStep_congr ?_, ?_⟩
  · intro front event behind shape
    constructor
    · intro guards mode iv8 cryptData state isPacket reached
      rcases guards mode iv8 cryptData state isPacket reached with
        ready | turnsDown
      · exact ready.2
      · exact absurd turnsDown (not_turnsDown mode state iv8 cryptData)
    · intro afterKey mode iv8 cryptData state isPacket reached
      have keyed := afterKey mode iv8 cryptData state isPacket reached
      exact Or.inl ⟨keyed.holdsKey reached, keyed⟩
  · intro state mode iv8 cryptData isNull
    rw [SecurityState.handle, cryptFunc_of_null mode isNull]
    rfl

/-- A connection for which no memory was left, and a packet flagged as
encrypted. -/
def packetWithoutSecurity : List (SecurityEvent Nat) :=
  [.bleConnect none, .crypt .decrypt 0 (ascii "hello")]

theorem packet_dereferences_null :
    (securityAfter textbookMbedtls packetWithoutSecurity).map
        SecurityState.blufiSec = .error .nullPointer ∧
      ¬ AtEveryStep (GuardsPacket textbookMbedtls)
        packetWithoutSecurity := by
  refine ⟨rfl, ?_⟩
  intro guards
  rcases guards [.bleConnect none] _ [] rfl _ _ _ _ rfl rfl with
    ⟨⟨sec, aes, psk, isSec, hasKey⟩, keyed⟩ | turnsDown
  · cases isSec
  · exact not_turnsDown _ _ _ _ turnsDown

end Esp32Source.Blufi
