import Esp32Source.Blufi.Ownership
import Esp32Source.Blufi.Textbook

/-!
# Lifetimes of the blocks

A run connects and disconnects the phone, with negotiation messages anywhere
in between.  When no accepted prime is longer than the arrays, every block is
used and freed only while it is live, and none outlives its connection.

A longer prime makes `mbedtls_dhm_make_public` write over the members behind
`self_public_key`, up to the pointer `dh_param` itself.  The last section
gives parameters with which the pointer comes to be the address of the block
that was freed just before.
-/

namespace Esp32Source.Blufi

open Memory Machine

variable {Dhm Aes Env : Type} {mbedtls : Mbedtls Dhm Aes Env}

/-! ## Connections -/

/-- No block is live, and `blufi_sec` is null. -/
def Absent (state : SecurityState Dhm Aes) : Prop :=
  state.blufiSec = 0 ∧ ∀ address, state.heap.block address = none

theorem BlufiSecurity.zero_members (dhm : Dhm) (aes : Aes) :
    BlufiSecurity.dhParam ⟨Buffer.zero 300, dhm, aes⟩ = 0 ∧
      BlufiSecurity.shareLen ⟨Buffer.zero 300, dhm, aes⟩ = 0 :=
  ⟨rfl, rfl⟩

theorem Absent.blufiSecurityInit {state : SecurityState Dhm Aes}
    (absent : Absent state) (allocated : Option Nat) :
    Absent (blufiSecurityInit mbedtls state allocated) ∨
      Settled (blufiSecurityInit mbedtls state allocated) := by
  rw [Esp32Source.Blufi.blufiSecurityInit]
  rcases state.heap.malloc_cases allocated
      (.security { raw := Buffer.zero 300, dhm := mbedtls.dhmInit,
                   aes := mbedtls.aesInit }) with
    failed | ⟨address, notNull, _, _, succeeded⟩
  · rw [failed]
    exact Or.inl ⟨rfl, absent.2⟩
  · rw [succeeded]
    obtain ⟨noParam, noSecret⟩ :=
      BlufiSecurity.zero_members mbedtls.dhmInit mbedtls.aesInit
    refine Or.inr ⟨_, none, ⟨notNull, Function.update_self _ _ _, ?_, ?_,
      ?_, ?_⟩, ?_⟩
    · rw [noSecret]
      decide
    · exact iff_of_true noParam rfl
    · rw [noParam]
      exact notNull.symm
    · intro other elsewhere
      rw [Option.map_none, ite_self, ← absent.2 other]
      exact Function.update_of_ne elsewhere _ _
    · intro content isSome
      cases isSome

theorem Holds.blufiSecurityDeinit {state : SecurityState Dhm Aes}
    {sec : BlufiSecurity Dhm Aes} {param : Option (List UInt8)}
    (holds : Holds state sec param) :
    ∃ next, blufiSecurityDeinit state = .ok next ∧ Absent next := by
  obtain ⟨released, changed, isReleased, holdsReleased, _, _, _⟩ :=
    holds.releaseDhParam
  obtain ⟨noParam, noSecret⟩ :=
    BlufiSecurity.zero_members changed.dhm changed.aes
  obtain ⟨cleared, holdsCleared⟩ :=
    holdsReleased.modify
      (fun sec => .ok { sec with raw := Buffer.zero 300 }) rfl
      (noParam.trans (holdsReleased.null.mpr rfl).symm)
      (by rw [noSecret]; decide)
  have freed := Heap.free_of_live holdsCleared.notNull holdsCleared.live
  rw [Esp32Source.Blufi.blufiSecurityDeinit, if_neg holds.notNull]
  simp only [bind, Except.bind, isReleased, cleared, freed]
  refine ⟨_, rfl, rfl, ?_⟩
  intro address
  by_cases isSecurity :
      address = (released.withSecurity
        { changed with raw := Buffer.zero 300 }).blufiSec
  · rw [isSecurity]
    exact Function.update_self _ _ _
  · exact (Function.update_of_ne isSecurity _ _).trans
      (holdsCleared.others_of_none isSecurity)

theorem blufiDhNegotiateDataHandler_settles (documented : mbedtls.Documented)
    {state : SecurityState Dhm Aes} (settled : Settled state)
    (message : Message) (allocated : Option Nat) (env : Env)
    (short : ∀ sec, message.data 0 = secTypeDhParamData →
      state.security = .ok sec → ShortPrime mbedtls sec message env) :
    ∃ next reply,
      blufiDhNegotiateDataHandler mbedtls state message allocated env =
          .ok (next, reply) ∧
        Settled next ∧ next.blufiSec = state.blufiSec := by
  obtain ⟨sec, param, holds, lengths⟩ := settled
  simp only [blufiDhNegotiateDataHandler, if_neg holds.notNull]
  by_cases isLen : message.data 0 = secTypeDhParamLen
  · rw [if_pos isLen]
    exact holds.dhParamLenCase message allocated
  · rw [if_neg isLen]
    by_cases isData : message.data 0 = secTypeDhParamData
    · rw [if_pos isData]
      exact dhParamDataCase_settles documented holds lengths message env
        (short sec isData holds.security_eq)
    · rw [if_neg isData]
      exact ⟨state, _, rfl, ⟨sec, param, holds, lengths⟩, rfl⟩

/-! ## Runs -/

/-- What an event does to the BLE connection. -/
def bleLink : SecurityEvent Env → Option Bool
  | .bleConnect _ => some true
  | .bleDisconnect => some false
  | _ => none

/-- A connection comes only while there is none. -/
def ConnectsWhileDisconnected (history : List (SecurityEvent Env))
    (event : SecurityEvent Env) : Prop :=
  bleLink event = some true → latest bleLink history ≠ some true

/-- The event is no packet to encrypt or decrypt. -/
def SecurityEvent.Negotiates : SecurityEvent Env → Prop
  | .crypt _ _ _ => False
  | _ => True

/-- The parameters that the event brings, when they are accepted, have a prime
of at most 128 bytes. -/
def BringsShortPrime (mbedtls : Mbedtls Dhm Aes Env)
    (history : List (SecurityEvent Env)) (event : SecurityEvent Env) :
    Prop :=
  ∀ message allocated env state sec,
    event = .negotiate message allocated env →
      message.data 0 = secTypeDhParamData →
        securityAfter mbedtls history = .ok state →
          state.security = .ok sec → ShortPrime mbedtls sec message env

/-- Every live structure is `*blufi_sec`, and every live parameter block is
the one that it points to. -/
structure OneOwner (state : SecurityState Dhm Aes) : Prop where
  security : ∀ address sec,
    state.heap.block address = some (.security sec) →
      address = state.blufiSec
  dhParam : ∀ address content,
    state.heap.block address = some (.dhParam content) →
      ∃ sec, state.heap.block state.blufiSec = some (.security sec) ∧
        sec.dhParam = address

/-- Nothing is live without a connection, and then everything is settled. -/
def Owned (history : List (SecurityEvent Env))
    (state : SecurityState Dhm Aes) : Prop :=
  (Absent state ∨ Settled state) ∧
    (latest bleLink history ≠ some true → Absent state)

theorem owned_initial :
    Owned ([] : List (SecurityEvent Env))
      (SecurityState.initial : SecurityState Dhm Aes) :=
  ⟨Or.inl ⟨rfl, fun _ => rfl⟩, fun _ => ⟨rfl, fun _ => rfl⟩⟩

theorem Owned.oneOwner {history : List (SecurityEvent Env)}
    {state : SecurityState Dhm Aes} (owned : Owned history state) :
    OneOwner state := by
  rcases owned.1 with absent | ⟨sec, param, holds, _⟩
  · refine ⟨?_, ?_⟩
    · intro address other live
      rw [absent.2 address] at live
      cases live
    · intro address content live
      rw [absent.2 address] at live
      cases live
  · refine ⟨?_, ?_⟩
    · intro address other live
      by_contra elsewhere
      rw [holds.others address elsewhere] at live
      split at live
      · obtain ⟨content, _, isSecurity⟩ := Option.map_eq_some_iff.mp live
        cases isSecurity
      · cases live
    · intro address content live
      refine ⟨sec, holds.live, ?_⟩
      by_cases isSecurity : address = state.blufiSec
      · rw [isSecurity, holds.live] at live
        cases live
      · rw [holds.others address isSecurity] at live
        by_contra elsewhere
        rw [if_neg (Ne.symm elsewhere)] at live
        cases live

theorem Owned.handle (documented : mbedtls.Documented)
    {history : List (SecurityEvent Env)} {event : SecurityEvent Env}
    {state : SecurityState Dhm Aes} (owned : Owned history state)
    (reached : securityAfter mbedtls history = .ok state)
    (negotiates : event.Negotiates)
    (connects : ConnectsWhileDisconnected history event)
    (short : BringsShortPrime mbedtls history event) :
    ∃ next reply,
      state.handle mbedtls event = .ok (next, reply) ∧
        Owned (history ++ [event]) next := by
  cases event with
  | bleConnect allocated =>
      have absent := owned.2 (connects rfl)
      have connected :
          latest bleLink (history ++ [.bleConnect allocated]) =
            some true := by
        rw [latest_concat]
        rfl
      exact ⟨_, .done, rfl, absent.blufiSecurityInit allocated,
        fun notConnected => absurd connected notConnected⟩
  | bleDisconnect =>
      have deinit : ∃ next, blufiSecurityDeinit state = .ok next ∧
          Absent next := by
        rcases owned.1 with absent | ⟨sec, param, holds, _⟩
        · exact ⟨state, if_pos absent.1, absent⟩
        · exact holds.blufiSecurityDeinit
      obtain ⟨next, isNext, absent⟩ := deinit
      refine ⟨next, .done, ?_, Or.inl absent, fun _ => absent⟩
      rw [SecurityState.handle, isNext]
      rfl
  | negotiate message allocated env =>
      have sameLink :
          latest bleLink (history ++ [.negotiate message allocated env]) =
            latest bleLink history := by
        rw [latest_concat]
        rfl
      rcases owned.1 with absent | settled
      · refine ⟨state,
          .negotiated { report := some .initSecurityError }, ?_,
          Or.inl absent, fun _ => absent⟩
        rw [SecurityState.handle, blufiDhNegotiateDataHandler,
          if_pos absent.1]
        rfl
      · obtain ⟨next, reply, handled, settledNext, samePointer⟩ :=
          blufiDhNegotiateDataHandler_settles documented settled message
            allocated env fun sec isData isSec =>
              short message allocated env state sec rfl isData reached isSec
        refine ⟨next, .negotiated reply, ?_, Or.inr settledNext, ?_⟩
        · rw [SecurityState.handle, handled]
          rfl
        · intro notConnected
          rw [sameLink] at notConnected
          obtain ⟨sec, param, holds, _⟩ := settled
          exact absurd (owned.2 notConnected).1 holds.notNull
  | crypt mode iv8 cryptData =>
      exact absurd negotiates id

/-- The run used and freed live blocks only; at most one block of each kind is
live after it, and none without a connection. -/
def KeepsOwnership (mbedtls : Mbedtls Dhm Aes Env)
    (history : List (SecurityEvent Env)) : Prop :=
  ∃ state,
    securityAfter mbedtls history = .ok state ∧
      OneOwner state ∧
      (latest bleLink history ≠ some true →
        ∀ address, state.heap.block address = none)

/-- A run whose accepted primes have at most 128 bytes keeps the ownership of
its blocks throughout. -/
theorem blocks_have_one_owner (documented : mbedtls.Documented)
    (history : List (SecurityEvent Env))
    (negotiates : ∀ event, event ∈ history → event.Negotiates)
    (alternate : AtEveryStep ConnectsWhileDisconnected history)
    (short : AtEveryStep (BringsShortPrime mbedtls) history) :
    AtEveryState (KeepsOwnership mbedtls) history := by
  have everywhere :
      AtEveryStep (fun front event =>
        event.Negotiates ∧ ConnectsWhileDisconnected front event ∧
          BringsShortPrime mbedtls front event) history := by
    intro front event behind shape
    have member : event ∈ history := by
      rw [shape]
      simp
    exact ⟨negotiates event member, alternate front event behind shape,
      short front event behind shape⟩
  refine everywhere.atEveryState ?_
  intro front steps
  obtain ⟨state, reached, owned⟩ :=
    after_total_of_steps Owned _ owned_initial
      (fun front event state reached owned step =>
        owned.handle documented reached step.1 step.2.1 step.2.2)
      steps
  exact ⟨state, reached, owned.oneOwner,
    fun notConnected => (owned.2 notConnected).2⟩

/-- One connection in which the phone sends parameters; the two blocks are
allocated at fixed addresses, and the random exponent is 3. -/
def connectionWith (params : List UInt8) : List (SecurityEvent Nat) :=
  [.bleConnect (some 0x3ffb1000),
    .negotiate (dhParamLenMessage params) (some 0x3ffb2000) 3,
    .negotiate (dhParamDataMessage params) none 3,
    .bleDisconnect]

theorem connectionWith_negotiates (params : List UInt8) :
    ∀ event, event ∈ connectionWith params → event.Negotiates := by
  intro event member
  simp only [connectionWith, List.mem_cons, List.not_mem_nil, or_false]
    at member
  rcases member with isEvent | isEvent | isEvent | isEvent <;>
    rw [isEvent] <;> trivial

theorem connectionWith_alternates (params : List UInt8) :
    AtEveryStep ConnectsWhileDisconnected (connectionWith params) := by
  simp only [connectionWith, atEveryStep_cons_iff]
  refine ⟨?_, ?_, ?_, ?_, atEveryStep_nil _⟩
  · intro _ connected
    cases connected
  all_goals
    intro connects
    cases connects

/-- Only the third message of such a connection brings parameters, and the
size of their prime can be computed. -/
theorem connectionWith_sizeP {mbedtls : Mbedtls DhContext (List UInt8) Nat}
    {params : List UInt8} {bound : Nat} (size : Nat)
    (computed :
      (securityAfter mbedtls ((connectionWith params).take 2) >>=
        SecurityState.security).map
          (fun sec => mbedtls.sizeP (mbedtls.dhmReadParams 3 sec.dhm
            ((dhParamDataMessage params).params sec.dhParamLen)).2) =
        .ok size)
    (small : size ≤ bound) :
    AtEveryStep (fun history event =>
      ∀ message allocated env state sec,
        event = .negotiate message allocated env →
          message.data 0 = secTypeDhParamData →
            securityAfter mbedtls history = .ok state →
              state.security = .ok sec →
                mbedtls.sizeP (mbedtls.dhmReadParams env sec.dhm
                  (message.params sec.dhParamLen)).2 ≤ bound)
      (connectionWith params) := by
  simp only [connectionWith, atEveryStep_cons_iff]
  refine ⟨?_, ?_, ?_, ?_, atEveryStep_nil _⟩
  · intro message allocated env state sec isMessage
    cases isMessage
  · intro message allocated env state sec isMessage isData
    cases isMessage
    rw [dhParamLenMessage, Message.ofBytes_data] at isData
    cases isData
  · intro message allocated env state sec isMessage _ reached isSec
    cases isMessage
    have isState :
        securityAfter mbedtls ((connectionWith params).take 2) =
          .ok state :=
      reached
    rw [isState] at computed
    simp only [bind, Except.bind, isSec, Except.map, Except.ok.injEq]
      at computed
    exact Nat.le_trans (Nat.le_of_eq computed) small
  · intro message allocated env state sec isMessage
    cases isMessage

/-- A number of 140 bytes that ends with the bytes of the address of the
parameter block. -/
def idempotent : Nat := 2 ^ 1119 + 0x0020fb3f

/-- Every power of `idempotent` is the number itself to this odd modulus of
280 bytes, so the public key is known whatever the random exponent is. -/
def longPrimeParams : List UInt8 :=
  dhParams (idempotent * ((idempotent - 1) / 2)) idempotent idempotent

/-- The public key overwrites `dh_param` with the address of the block that
was just freed, and the disconnect frees the block again. -/
theorem longPrime_frees_dhParam_twice :
    textbookMbedtls.Documented ∧
      (∀ event, event ∈ connectionWith longPrimeParams →
        event.Negotiates) ∧
      AtEveryStep ConnectsWhileDisconnected
        (connectionWith longPrimeParams) ∧
      (securityAfter textbookMbedtls
          ((connectionWith longPrimeParams).take 3)).map
          (fun state => (state.heap.block 0x3ffb2000).isSome) =
        .ok false ∧
      (securityAfter textbookMbedtls
          ((connectionWith longPrimeParams).take 3) >>=
          SecurityState.security).map BlufiSecurity.dhParam =
        .ok 0x3ffb2000 ∧
      (securityAfter textbookMbedtls (connectionWith longPrimeParams)).map
          SecurityState.blufiSec = .error .deadBlock ∧
      ¬ AtEveryState (KeepsOwnership textbookMbedtls)
        (connectionWith longPrimeParams) := by
  have freedTwice :
      (securityAfter textbookMbedtls (connectionWith longPrimeParams)).map
        SecurityState.blufiSec = .error .deadBlock := by
    decide +kernel
  refine ⟨textbookMbedtls_documented,
    connectionWith_negotiates longPrimeParams,
    connectionWith_alternates longPrimeParams, ?_, ?_, freedTwice, ?_⟩
  · decide +kernel
  · decide +kernel
  · intro keeps
    obtain ⟨state, reached, _⟩ := keeps.last
    rw [reached] at freedTwice
    cases freedTwice

/-- Parameters whose exchange completes: the secret is 0, and so the digest is
that of the empty string. -/
def shortPrimeParams : List UInt8 :=
  dhParams 27 5 9

theorem shortPrimeParams_brings :
    AtEveryStep (BringsShortPrime textbookMbedtls)
      (connectionWith shortPrimeParams) := by
  intro front event behind shape message allocated env state sec isMessage
    isData reached isSec _ _
  exact connectionWith_sizeP 1 (by decide +kernel) (by decide) front event
    behind shape message allocated env state sec isMessage isData reached
    isSec

theorem blocks_have_one_owner_shortPrime :
    AtEveryState (KeepsOwnership textbookMbedtls)
      (connectionWith shortPrimeParams) :=
  blocks_have_one_owner textbookMbedtls_documented
    (connectionWith shortPrimeParams)
    (connectionWith_negotiates shortPrimeParams)
    (connectionWith_alternates shortPrimeParams) shortPrimeParams_brings

end Esp32Source.Blufi
