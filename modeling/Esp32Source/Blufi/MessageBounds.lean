import Esp32Source.Blufi.Lifetime
import Esp32Source.Blufi.Structure

/-!
# What is read of a message

`blufi_dh_negotiate_data_handler` is given the length of a message and never
looks at it.  How far it reads is decided by the type of the message and by
the length that an earlier one announced, so a message that is shorter is read
past its end instead of being rejected.

The handler reads inside every message of a run exactly when each message that
sets or brings parameters is as long as what is read of it.
-/

namespace Esp32Source.Blufi

open Memory Machine

variable {Dhm Aes Env : Type} {mbedtls : Mbedtls Dhm Aes Env}

/-- Another memory behind the same bytes. -/
def Message.SameBytes (message other : Message) : Prop :=
  other.len = message.len ∧
    ∀ index, index < message.len → other.data index = message.data index

/-- The message cannot hold what its type calls for: the two bytes of a
length, or as many bytes of parameters as were announced. -/
def Message.TooShort (message : Message) (state : SecurityState Dhm Aes) :
    Prop :=
  (message.data 0 = secTypeDhParamLen ∧ message.len < 3) ∨
    (message.data 0 = secTypeDhParamData ∧
      ∃ sec, state.security = .ok sec ∧
        message.len < sec.dhParamLen + 1)

/-- Only bytes of the message are read: what follows it in memory makes no
difference, the handler counts no byte behind it, and a message that is too
short is turned down with an error. -/
structure ReadsInside (mbedtls : Mbedtls Dhm Aes Env)
    (state : SecurityState Dhm Aes) (message : Message)
    (allocated : Option Nat) (env : Env) : Prop where
  same : ∀ other, message.SameBytes other →
    blufiDhNegotiateDataHandler mbedtls state other allocated env =
      blufiDhNegotiateDataHandler mbedtls state message allocated env
  bounded : ∀ next reply,
    blufiDhNegotiateDataHandler mbedtls state message allocated env =
      .ok (next, reply) → reply.dataRead ≤ message.len
  rejects : message.TooShort state → ∃ next reply error,
    blufiDhNegotiateDataHandler mbedtls state message allocated env =
      .ok (next, reply) ∧ reply.report = some error

/-- With a structure, a length message has three bytes, and where parameters
are expected, a message that brings them has as many as announced. -/
def Message.LongEnough (message : Message) (state : SecurityState Dhm Aes) :
    Prop :=
  state.blufiSec ≠ 0 →
    (message.data 0 = secTypeDhParamLen → 3 ≤ message.len) ∧
      (message.data 0 = secTypeDhParamData →
        ∀ sec, state.security = .ok sec → sec.dhParam ≠ 0 →
          sec.dhParamLen + 1 ≤ message.len)

/-! ## How far a message is read -/

variable {state next : SecurityState Dhm Aes} {message : Message}
  {allocated : Option Nat} {env : Env} {reply : NegotiateReply}

theorem keyExchange_dataRead {dataRead : Nat}
    (exchanged :
      keyExchange mbedtls state env dataRead = .ok (next, reply)) :
    reply.dataRead = dataRead := by
  obtain ⟨_, _, _, way⟩ := keyExchange_cases exchanged
  rcases way with ⟨_, isReply⟩ | ⟨_, _, _, _, _, _, way⟩
  · rw [isReply]
  · rcases way with ⟨_, isReply⟩ | ⟨_, _, _, isReply⟩
    · rw [isReply]
    · rw [isReply]

/-- A length message is read up to its third byte. -/
theorem dhParamLenCase_dataRead
    (handled :
      dhParamLenCase state message allocated = .ok (next, reply)) :
    reply.dataRead = 3 := by
  obtain ⟨announced, _, rest⟩ := bind_eq_ok_iff.mp handled
  obtain ⟨released, _, rest⟩ := bind_eq_ok_iff.mp rest
  obtain ⟨pointed, _, rest⟩ := bind_eq_ok_iff.mp rest
  cases rest
  rfl

/-- Where parameters are expected, as many bytes are read as were
announced. -/
theorem dhParamDataCase_dataRead {sec : BlufiSecurity Dhm Aes}
    (isSec : state.security = .ok sec)
    (handled :
      dhParamDataCase mbedtls state message env = .ok (next, reply)) :
    reply.dataRead = if sec.dhParam = 0 then 1 else 1 + sec.dhParamLen := by
  obtain ⟨found, isFound, way⟩ := dhParamDataCase_cases handled
  cases isSec.symm.trans isFound
  rcases way with ⟨noParam, _, isReply⟩ | ⟨hasParam, _, _, _, _, way⟩
  · rw [if_pos noParam, isReply]
  · rw [if_neg hasParam]
    rcases way with ⟨_, isReply⟩ | ⟨_, _, _, exchanged⟩
    · rw [isReply]
    · exact keyExchange_dataRead exchanged

/-! ## What lies behind a message -/

theorem params_of_sameBytes {other : Message}
    (sameBytes : message.SameBytes other) {length : Nat}
    (inside : length + 1 ≤ message.len) :
    other.params length = message.params length := by
  apply List.map_congr_left
  intro index member
  exact sameBytes.2 (1 + index) (by
    have below := List.mem_range.mp member
    omega)

/-- Two memories with the same message are handled alike, if the message is
long enough. -/
theorem handler_of_sameBytes {other : Message}
    (nonempty : 1 ≤ message.len) (longEnough : message.LongEnough state)
    (sameBytes : message.SameBytes other) :
    blufiDhNegotiateDataHandler mbedtls state other allocated env =
      blufiDhNegotiateDataHandler mbedtls state message allocated env := by
  have sameType : other.data 0 = message.data 0 :=
    sameBytes.2 0 nonempty
  by_cases isNull : state.blufiSec = 0
  · rw [handler_of_null isNull, handler_of_null isNull]
  · obtain ⟨lenHolds, dataHolds⟩ := longEnough isNull
    by_cases isLen : message.data 0 = secTypeDhParamLen
    · have holds := lenHolds isLen
      have sameHigh : other.data 1 = message.data 1 :=
        sameBytes.2 1 (by omega)
      have sameLow : other.data 2 = message.data 2 :=
        sameBytes.2 2 (by omega)
      rw [handler_of_len isNull (sameType.trans isLen),
        handler_of_len isNull isLen, dhParamLenCase, dhParamLenCase,
        sameHigh, sameLow]
    · by_cases isData : message.data 0 = secTypeDhParamData
      · rw [handler_of_data isNull (sameType.trans isData),
          handler_of_data isNull isData, dhParamDataCase, dhParamDataCase]
        cases isSec : state.security with
        | error fault =>
            rfl
        | ok sec =>
            simp only [bind, Except.bind]
            by_cases noParam : sec.dhParam = 0
            · rw [if_pos noParam, if_pos noParam]
            · rw [if_neg noParam, if_neg noParam,
                params_of_sameBytes sameBytes
                  (dataHolds isData sec isSec noParam)]
      · rw [handler_of_other isNull (by rwa [sameType])
            (by rwa [sameType]),
          handler_of_other isNull isLen isData]

theorem dataRead_of_longEnough (nonempty : 1 ≤ message.len)
    (longEnough : message.LongEnough state)
    (handled :
      blufiDhNegotiateDataHandler mbedtls state message allocated env =
        .ok (next, reply)) : reply.dataRead ≤ message.len := by
  rcases handler_cases handled with ⟨_, _, isReply⟩ | ⟨notNull, way⟩
  · rw [isReply]
    exact nonempty
  · obtain ⟨lenHolds, dataHolds⟩ := longEnough notNull
    rcases way with ⟨isLen, announced⟩ | ⟨isData, brought⟩ | ⟨_, isReply⟩
    · rw [dhParamLenCase_dataRead announced]
      exact lenHolds isLen
    · obtain ⟨sec, isSec, _⟩ := bind_eq_ok_iff.mp brought
      rw [dhParamDataCase_dataRead isSec brought]
      by_cases noParam : sec.dhParam = 0
      · rw [if_pos noParam]
        exact nonempty
      · have inside := dataHolds isData sec isSec noParam
        rw [if_neg noParam]
        omega
    · rw [isReply]
      exact nonempty

/-- A message that is too short but long enough for the state comes where no
bytes behind its type are read. -/
theorem rejected_of_longEnough (longEnough : message.LongEnough state)
    (tooShort : message.TooShort state) :
    ∃ next reply error,
      blufiDhNegotiateDataHandler mbedtls state message allocated env =
        .ok (next, reply) ∧ reply.report = some error := by
  by_cases isNull : state.blufiSec = 0
  · exact ⟨state, _, .initSecurityError, handler_of_null isNull, rfl⟩
  · obtain ⟨lenHolds, dataHolds⟩ := longEnough isNull
    rcases tooShort with ⟨isLen, short⟩ | ⟨isData, sec, isSec, short⟩
    · have inside := lenHolds isLen
      omega
    · by_cases noParam : sec.dhParam = 0
      · refine ⟨state, { report := some .dhParamError }, .dhParamError,
          ?_, rfl⟩
        rw [handler_of_data isNull isData, dhParamDataCase, isSec]
        exact if_pos noParam
      · have inside := dataHolds isData sec isSec noParam
        omega

/-- The handler reads inside a message exactly when it is long enough. -/
theorem readsInside_iff (nonempty : 1 ≤ message.len) :
    ReadsInside mbedtls state message allocated env ↔
      message.LongEnough state := by
  constructor
  · intro reads notNull
    constructor
    · intro isLen
      by_contra short
      obtain ⟨next, reply, error, handled, _⟩ :=
        reads.rejects (Or.inl ⟨isLen, Nat.lt_of_not_le short⟩)
      have bounded := reads.bounded next reply handled
      rw [handler_of_len notNull isLen] at handled
      rw [dhParamLenCase_dataRead handled] at bounded
      exact short bounded
    · intro isData sec isSec hasParam
      by_contra short
      obtain ⟨next, reply, error, handled, _⟩ :=
        reads.rejects (Or.inr ⟨isData, sec, isSec, by omega⟩)
      have bounded := reads.bounded next reply handled
      rw [handler_of_data notNull isData] at handled
      rw [dhParamDataCase_dataRead isSec handled, if_neg hasParam]
        at bounded
      omega
  · intro longEnough
    refine ⟨?_, ?_, ?_⟩
    · intro other sameBytes
      exact handler_of_sameBytes nonempty longEnough sameBytes
    · intro next reply handled
      exact dataRead_of_longEnough nonempty longEnough handled
    · intro tooShort
      exact rejected_of_longEnough longEnough tooShort

/-! ## Runs -/

/-- If the event is a message, the handler reads inside it. -/
def ReadsInsideAt (mbedtls : Mbedtls Dhm Aes Env)
    (front : List (SecurityEvent Env)) (event : SecurityEvent Env) :
    Prop :=
  ∀ message allocated env state,
    event = .negotiate message allocated env →
      securityAfter mbedtls front = .ok state →
        ReadsInside mbedtls state message allocated env

/-- If the event is a message, it is long enough for the state it meets. -/
def LongEnoughAt (mbedtls : Mbedtls Dhm Aes Env)
    (front : List (SecurityEvent Env)) (event : SecurityEvent Env) :
    Prop :=
  ∀ message allocated env state,
    event = .negotiate message allocated env →
      securityAfter mbedtls front = .ok state → message.LongEnough state

/-- In every run, with any library behind the handler, all messages are read
inside exactly when each of them is long enough for the state it meets. -/
theorem messages_read_inside_iff (mbedtls : Mbedtls Dhm Aes Env)
    (history : List (SecurityEvent Env))
    (nonempty : ∀ message allocated env,
      .negotiate message allocated env ∈ history → 1 ≤ message.len) :
    AtEveryStep (ReadsInsideAt mbedtls) history ↔
      AtEveryStep (LongEnoughAt mbedtls) history := by
  apply atEveryStep_congr
  intro front event behind shape
  have member : event ∈ history := by
    rw [shape]
    simp
  constructor
  · intro reads message allocated env state isMessage reached
    rw [isMessage] at member
    exact (readsInside_iff (nonempty _ _ _ member)).mp
      (reads message allocated env state isMessage reached)
  · intro longEnough message allocated env state isMessage reached
    rw [isMessage] at member
    exact (readsInside_iff (nonempty _ _ _ member)).mpr
      (longEnough message allocated env state isMessage reached)

theorem connectionWith_nonempty (params : List UInt8) :
    ∀ message allocated env,
      .negotiate message allocated env ∈ connectionWith params →
        1 ≤ message.len := by
  intro message allocated env member
  simp only [connectionWith, List.mem_cons, List.not_mem_nil, or_false]
    at member
  rcases member with isEvent | isEvent | isEvent | isEvent
  · cases isEvent
  · cases isEvent
    exact Nat.succ_pos _
  · cases isEvent
    exact Nat.succ_pos _
  · cases isEvent

/-- A connection with a short prime, whose messages are as long as what they
announce. -/
theorem messages_read_inside_iff_shortPrime :
    AtEveryStep (ReadsInsideAt textbookMbedtls)
      (connectionWith shortPrimeParams) := by
  refine (messages_read_inside_iff textbookMbedtls _
    (connectionWith_nonempty shortPrimeParams)).mpr ?_
  simp only [connectionWith, atEveryStep_cons_iff]
  refine ⟨?_, ?_, ?_, ?_, atEveryStep_nil _⟩
  · intro message allocated env state isMessage
    cases isMessage
  · intro message allocated env state isMessage _ _
    cases isMessage
    refine ⟨fun _ => by decide, ?_⟩
    intro isData
    rw [dhParamLenMessage, Message.ofBytes_data] at isData
    cases isData
  · intro message allocated env state isMessage reached _
    cases isMessage
    refine ⟨?_, ?_⟩
    · intro isLen
      rw [dhParamDataMessage, Message.ofBytes_data] at isLen
      cases isLen
    · intro _ sec isSec _
      have announced :
          (securityAfter textbookMbedtls
              ((connectionWith shortPrimeParams).take 2) >>=
            SecurityState.security).map BlufiSecurity.dhParamLen =
            .ok 9 := by
        decide +kernel
      have isState :
          securityAfter textbookMbedtls
            ((connectionWith shortPrimeParams).take 2) = .ok state :=
        reached
      rw [isState] at announced
      simp only [bind, Except.bind, isSec, Except.map, Except.ok.injEq]
        at announced
      rw [announced]
      decide
  · intro message allocated env state isMessage
    cases isMessage

/-- A length message of one byte, with zeros behind it. -/
def cutLengthMessage : List (SecurityEvent Nat) :=
  [.bleConnect (some 0x3ffb1000),
    .negotiate { data := fun _ => 0, len := 1 } none 3]

/-- The two bytes behind the message are taken as the length. -/
theorem cutLengthMessage_read_outside :
    ¬ ∀ history : List (SecurityEvent Nat),
      (∀ message allocated env,
        .negotiate message allocated env ∈ history → 1 ≤ message.len) →
        AtEveryStep (ReadsInsideAt textbookMbedtls) history := by
  intro always
  have nonempty : ∀ message allocated env,
      .negotiate message allocated env ∈ cutLengthMessage →
        1 ≤ message.len := by
    intro message allocated env member
    simp only [cutLengthMessage, List.mem_cons, List.not_mem_nil,
      or_false] at member
    rcases member with isEvent | isEvent
    · cases isEvent
    · cases isEvent
      exact Nat.le_refl 1
  have reads := always cutLengthMessage nonempty
    (cutLengthMessage.take 1) _ [] rfl _ _ _ _ rfl rfl
  have counted : (blufiDhNegotiateDataHandler textbookMbedtls
      (blufiSecurityInit textbookMbedtls SecurityState.initial
        (some 0x3ffb1000)) { data := fun _ => 0, len := 1 } none 3).map
        (fun result => result.2.dataRead) = .ok 3 := by
    decide +kernel
  obtain ⟨⟨next, reply⟩, handled, isThree⟩ := map_eq_ok_iff.mp counted
  have bounded := reads.bounded next reply handled
  dsimp only at isThree bounded
  omega

end Esp32Source.Blufi
