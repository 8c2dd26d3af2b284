import Esp32Source.Blufi.Configuration
import Esp32Source.Machine.Registers

/-!
# The configuration field by field

Read field by field, `sta_config` and `ap_config` behave as a register file
whose writes spill: the register file says which value each event assigns to
which field, and where its NUL lands outside that field.

Each well-formed event is shown to do to the records what it does to the
register file.  The results about register files then say when the fields
hold the values that were last accepted for them.
-/

namespace Esp32Source.Blufi

open Memory Machine Wifi

/-! ## The fields -/

inductive ConfigField where
  | staBssid
  | staSsid
  | staPasswd
  | staScanMethod
  | softapSsid
  | softapPasswd
  | softapMaxConnNum
  | softapAuthMode
  | softapChannel
  deriving DecidableEq, Repr

inductive ConfigValue where
  /-- A string, or the bytes of a member. -/
  | octets (bytes : List UInt8)
  /-- A station address and whether it is set. -/
  | bssid (set : Bool) (bytes : List UInt8)
  /-- A softAP name and the byte of its `ssid_len`. -/
  | name (text length : List UInt8)
  | number (value : Nat)
  deriving DecidableEq, Repr

/-- How a field of the two records reads. -/
def Configuration.reading (configuration : Configuration) :
    ConfigField → ConfigValue
  | .staBssid =>
      .bssid configuration.sta.bssidSet configuration.sta.bssid.cells
  | .staSsid => .octets (ssidText configuration.sta.lead)
  | .staPasswd => .octets (passwordText configuration.sta.lead)
  | .staScanMethod =>
      .octets (configuration.sta.lead.window behindPassword 4)
  | .softapSsid =>
      .name (ssidText configuration.ap.lead)
        (configuration.ap.lead.window behindPassword 1)
  | .softapPasswd => .octets (passwordText configuration.ap.lead)
  | .softapMaxConnNum => .number configuration.ap.maxConnection.toNat
  | .softapAuthMode => .number configuration.ap.authmode
  | .softapChannel => .number configuration.ap.channel.toNat

/-- The field that an event is for and the value it sets, unless the event is
rejected. -/
def BlufiEvent.accepted (wifiAuthMax : Nat) :
    BlufiEvent → Option (ConfigField × ConfigValue)
  | .recvStaBssid bssid => some (.staBssid, .bssid true bssid.cells)
  | .recvStaSsid ssid => some (.staSsid, .octets ssid)
  | .recvStaPasswd passwd => some (.staPasswd, .octets passwd)
  | .recvSoftapSsid ssid =>
      some (.softapSsid, .name ssid [UInt8.ofNat ssid.length])
  | .recvSoftapPasswd passwd => some (.softapPasswd, .octets passwd)
  | .recvSoftapMaxConnNum maxConnNum =>
      if maxConnNum > 4 then none
      else some (.softapMaxConnNum, .number (toByte maxConnNum).toNat)
  | .recvSoftapAuthMode authmode =>
      if authmode ≥ wifiAuthMax then none
      else some (.softapAuthMode, .number authmode)
  | .recvSoftapChannel channel =>
      if channel > 13 then none
      else some (.softapChannel, .number channel.toNat)
  | _ => none

/-- The field whose first byte is overwritten by the NUL of a string that
fills its array. -/
def BlufiEvent.spillsOnto : BlufiEvent → Option ConfigField
  | .recvStaSsid ssid =>
      if ssid.length = 32 then some .staPasswd else none
  | .recvStaPasswd passwd =>
      if passwd.length = 64 then some .staScanMethod else none
  | .recvSoftapSsid ssid =>
      if ssid.length = 32 then some .softapPasswd else none
  | .recvSoftapPasswd passwd =>
      if passwd.length = 64 then some .softapSsid else none
  | _ => none

/-- A value whose first byte was overwritten: a password reads as the empty
string, a softAP name has length zero. -/
def cutAtFirstByte : ConfigField → ConfigValue → ConfigValue
  | .staPasswd, .octets _ => .octets []
  | .softapPasswd, .octets _ => .octets []
  | .staScanMethod, .octets bytes => .octets (0 :: bytes.tail)
  | .softapSsid, .name text length => .name text (0 :: length.tail)
  | _, value => value

/-- The two records as a register file. -/
def configFile (wifiAuthMax : Nat) :
    RegisterFile BlufiEvent ConfigField ConfigValue where
  assigns := BlufiEvent.accepted wifiAuthMax
  spills := BlufiEvent.spillsOnto
  damage := cutAtFirstByte
  start := Configuration.zero.reading

/-- Names have 1 to 32 and passwords 1 to 64 bytes, none of them NUL. -/
def BlufiEvent.WellFormed : BlufiEvent → Prop
  | .recvStaSsid ssid | .recvSoftapSsid ssid =>
      1 ≤ ssid.length ∧ ssid.length ≤ 32 ∧ NulFree ssid
  | .recvStaPasswd passwd | .recvSoftapPasswd passwd =>
      1 ≤ passwd.length ∧ passwd.length ≤ 64 ∧ NulFree passwd
  | _ => True

/-! ## One event -/

/-- The event is handled, and the fields then read as the register file
says. -/
def Refines (wifiAuthMax : Nat) (configuration : Configuration)
    (event : BlufiEvent) : Prop :=
  ∃ next calls,
    configuration.exampleEventCallback wifiAuthMax event =
        .ok (next, calls) ∧
      next.reading =
        (configFile wifiAuthMax).next configuration.reading event

variable {wifiAuthMax : Nat}

/-- An accepted event whose new fields are known one by one. -/
theorem Refines.of_fields {configuration next : Configuration}
    {event : BlufiEvent} {calls : List ConfigCall}
    {own : ConfigField} {value : ConfigValue}
    (handled : configuration.exampleEventCallback wifiAuthMax event =
      .ok (next, calls))
    (accepts : event.accepted wifiAuthMax = some (own, value))
    (fields : ∀ field, next.reading field =
      if own = field then value
      else if event.spillsOnto = some field then
        cutAtFirstByte field (configuration.reading field)
      else configuration.reading field) :
    Refines wifiAuthMax configuration event := by
  refine ⟨next, calls, handled, ?_⟩
  funext field
  rw [fields, (configFile wifiAuthMax).next_of_assigns accepts]
  rfl

theorem recvStaSsid_refines (configuration : Configuration)
    {ssid : List UInt8}
    (wellFormed : (BlufiEvent.recvStaSsid ssid).WellFormed) :
    Refines wifiAuthMax configuration (.recvStaSsid ssid) := by
  obtain ⟨_, short, free⟩ := wellFormed
  obtain ⟨stored, success, name, password, scanMethod⟩ :=
    copyField_ssid configuration.sta.lead short free (by decide)
  have handled :
      configuration.exampleEventCallback wifiAuthMax (.recvStaSsid ssid) =
        .ok ({ configuration with sta.lead := stored },
          [.setSta { configuration.sta with lead := stored }]) := by
    rw [Configuration.exampleEventCallback, success]
    rfl
  refine Refines.of_fields handled rfl fun field => ?_
  cases field with
  | staPasswd =>
      by_cases full : ssid.length = 32 <;>
        simp [Configuration.reading, BlufiEvent.spillsOnto, cutAtFirstByte,
          full, password]
  | _ =>
      simp [Configuration.reading, BlufiEvent.spillsOnto, name, scanMethod]

theorem recvStaPasswd_refines (configuration : Configuration)
    {passwd : List UInt8}
    (wellFormed : (BlufiEvent.recvStaPasswd passwd).WellFormed) :
    Refines wifiAuthMax configuration (.recvStaPasswd passwd) := by
  obtain ⟨_, short, free⟩ := wellFormed
  obtain ⟨stored, success, name, password, behind⟩ :=
    copyField_passwd configuration.sta.lead short free (by decide)
  have scanMethod := behind 4 (by decide) (by decide)
  have handled :
      configuration.exampleEventCallback wifiAuthMax
          (.recvStaPasswd passwd) =
        .ok ({ configuration with sta.lead := stored },
          [.setSta { configuration.sta with lead := stored }]) := by
    rw [Configuration.exampleEventCallback, success]
    rfl
  refine Refines.of_fields handled rfl fun field => ?_
  cases field with
  | staScanMethod =>
      by_cases full : passwd.length = 64 <;>
        simp [Configuration.reading, BlufiEvent.spillsOnto, cutAtFirstByte,
          full, scanMethod]
  | _ =>
      simp [Configuration.reading, BlufiEvent.spillsOnto, name, password]

theorem recvSoftapSsid_refines (configuration : Configuration)
    {ssid : List UInt8}
    (wellFormed : (BlufiEvent.recvSoftapSsid ssid).WellFormed) :
    Refines wifiAuthMax configuration (.recvSoftapSsid ssid) := by
  obtain ⟨_, short, free⟩ := wellFormed
  obtain ⟨copied, success, name, password, _⟩ :=
    copyField_ssid configuration.ap.lead short free (by decide)
  obtain ⟨stored, lengthStored, _⟩ :=
    copied.store_of_fits behindPassword [UInt8.ofNat ssid.length]
      (by rw [behindPassword, List.length_singleton])
  have nameKept : ssidText stored = ssidText copied := by
    rw [ssidText, Buffer.window_store_disjoint lengthStored
      (Or.inl (by decide))]
    rfl
  have passwordKept : passwordText stored = passwordText copied := by
    rw [passwordText, Buffer.window_store_disjoint lengthStored
      (Or.inl (by decide))]
    rfl
  have length : stored.window behindPassword 1 =
      [UInt8.ofNat ssid.length] :=
    Buffer.window_store_self lengthStored
  have handled :
      configuration.exampleEventCallback wifiAuthMax
          (.recvSoftapSsid ssid) =
        .ok ({ configuration with ap.lead := stored },
          [.setAp { configuration.ap with lead := stored }]) := by
    rw [Configuration.exampleEventCallback, success]
    simp only [bind, Except.bind, lengthStored]
    rfl
  refine Refines.of_fields handled rfl fun field => ?_
  cases field with
  | softapPasswd =>
      by_cases full : ssid.length = 32 <;>
        simp [Configuration.reading, BlufiEvent.spillsOnto, cutAtFirstByte,
          full, passwordKept, password]
  | _ =>
      simp [Configuration.reading, BlufiEvent.spillsOnto, nameKept, name,
        length]

theorem recvSoftapPasswd_refines (configuration : Configuration)
    {passwd : List UInt8}
    (wellFormed : (BlufiEvent.recvSoftapPasswd passwd).WellFormed) :
    Refines wifiAuthMax configuration (.recvSoftapPasswd passwd) := by
  obtain ⟨_, short, free⟩ := wellFormed
  obtain ⟨stored, success, name, password, behind⟩ :=
    copyField_passwd configuration.ap.lead short free (by decide)
  have length := behind 1 (by decide) (by decide)
  have handled :
      configuration.exampleEventCallback wifiAuthMax
          (.recvSoftapPasswd passwd) =
        .ok ({ configuration with ap.lead := stored },
          [.setAp { configuration.ap with lead := stored }]) := by
    rw [Configuration.exampleEventCallback, success]
    rfl
  refine Refines.of_fields handled rfl fun field => ?_
  cases field with
  | softapSsid =>
      by_cases full : passwd.length = 64 <;>
        simp [Configuration.reading, BlufiEvent.spillsOnto, cutAtFirstByte,
          full, name, length]
  | _ =>
      simp [Configuration.reading, BlufiEvent.spillsOnto, password]

/-- An event that is rejected, or is for no field, changes nothing. -/
theorem refines_of_unchanged {configuration : Configuration}
    {event : BlufiEvent}
    (handled : configuration.exampleEventCallback wifiAuthMax event =
      .ok (configuration, []))
    (rejects : event.accepted wifiAuthMax = none)
    (noSpill : event.spillsOnto = none) :
    Refines wifiAuthMax configuration event := by
  refine ⟨configuration, [], handled, ?_⟩
  rw [(configFile wifiAuthMax).next_of_idle rejects noSpill]

theorem recvSoftapMaxConnNum_refines (configuration : Configuration)
    (maxConnNum : Int) :
    Refines wifiAuthMax configuration
      (.recvSoftapMaxConnNum maxConnNum) := by
  by_cases tooMany : maxConnNum > 4
  · exact refines_of_unchanged (if_pos tooMany) (if_pos tooMany) rfl
  · refine Refines.of_fields (if_neg tooMany) (if_neg tooMany) fun field => ?_
    cases field <;> rfl

theorem recvSoftapAuthMode_refines (configuration : Configuration)
    (authMode : Nat) :
    Refines wifiAuthMax configuration (.recvSoftapAuthMode authMode) := by
  by_cases unknown : authMode ≥ wifiAuthMax
  · exact refines_of_unchanged (if_pos unknown) (if_pos unknown) rfl
  · refine Refines.of_fields (if_neg unknown) (if_neg unknown) fun field => ?_
    cases field <;> rfl

theorem recvSoftapChannel_refines (configuration : Configuration)
    (channel : UInt8) :
    Refines wifiAuthMax configuration (.recvSoftapChannel channel) := by
  by_cases tooHigh : channel > 13
  · exact refines_of_unchanged (if_pos tooHigh) (if_pos tooHigh) rfl
  · refine Refines.of_fields (if_neg tooHigh) (if_neg tooHigh) fun field => ?_
    cases field <;> rfl

theorem recvStaBssid_refines (configuration : Configuration)
    (bssid : Buffer 6) :
    Refines wifiAuthMax configuration (.recvStaBssid bssid) := by
  refine Refines.of_fields rfl rfl fun field => ?_
  cases field <;> rfl

/-- Every well-formed event does to the two records what it does to the
register file. -/
theorem event_refines (wifiAuthMax : Nat) (configuration : Configuration)
    {event : BlufiEvent}
    (wellFormed : event.WellFormed) :
    Refines wifiAuthMax configuration event := by
  cases event with
  | recvStaBssid bssid => exact recvStaBssid_refines configuration bssid
  | recvStaSsid ssid => exact recvStaSsid_refines configuration wellFormed
  | recvStaPasswd passwd =>
      exact recvStaPasswd_refines configuration wellFormed
  | recvSoftapSsid ssid =>
      exact recvSoftapSsid_refines configuration wellFormed
  | recvSoftapPasswd passwd =>
      exact recvSoftapPasswd_refines configuration wellFormed
  | recvSoftapMaxConnNum maxConnNum =>
      exact recvSoftapMaxConnNum_refines configuration maxConnNum
  | recvSoftapAuthMode authMode =>
      exact recvSoftapAuthMode_refines configuration authMode
  | recvSoftapChannel channel =>
      exact recvSoftapChannel_refines configuration channel
  | _ => exact refines_of_unchanged rfl rfl rfl

/-- A history of well-formed events runs without a fault, and the fields then
read as the register file says. -/
theorem configurationAfter_refines (wifiAuthMax : Nat)
    {history : List BlufiEvent}
    (wellFormed : ∀ event, event ∈ history → event.WellFormed) :
    ∃ configuration,
      configurationAfter wifiAuthMax history = .ok configuration ∧
        configuration.reading =
          (configFile wifiAuthMax).valuesAfter history := by
  refine after_total
    (fun front (configuration : Configuration) => configuration.reading =
      (configFile wifiAuthMax).valuesAfter front)
    BlufiEvent.WellFormed rfl ?_ wellFormed
  intro front event configuration reads allowed
  obtain ⟨next, calls, handled, nextReads⟩ :=
    event_refines wifiAuthMax configuration allowed
  refine ⟨next, calls, handled, ?_⟩
  rw [RegisterFile.valuesAfter_concat, ← reads, nextReads]

/-! ## The spills are destructive -/

theorem cutAtFirstByte_idempotent (field : ConfigField)
    (value : ConfigValue) :
    cutAtFirstByte field (cutAtFirstByte field value) =
      cutAtFirstByte field value := by
  cases field <;> cases value <;> rfl

theorem ofNat_length_ne_zero {text : List UInt8}
    (nonempty : 1 ≤ text.length) (short : text.length ≤ 32) :
    UInt8.ofNat text.length ≠ 0 := by
  intro equality
  have sameNat := congrArg UInt8.toNat equality
  rw [UInt8.toNat_ofNat', UInt8.toNat_zero] at sameNat
  omega

theorem accepted_field_ne_scanMethod {event : BlufiEvent}
    {field : ConfigField} {value : ConfigValue}
    (accepts : event.accepted wifiAuthMax = some (field, value)) :
    field ≠ .staScanMethod := by
  intro isScanMethod
  subst isScanMethod
  cases event <;> simp [BlufiEvent.accepted] at accepts

/-- The overwritten byte was not zero: a password of a well-formed event is
not empty, and neither is a name. -/
theorem cutAtFirstByte_accepted_ne {spiller event : BlufiEvent}
    {field : ConfigField} {value : ConfigValue}
    (spill : spiller.spillsOnto = some field)
    (wellFormed : event.WellFormed)
    (accepts : event.accepted wifiAuthMax = some (field, value)) :
    cutAtFirstByte field value ≠ value := by
  cases field with
  | staScanMethod =>
      exact absurd rfl (accepted_field_ne_scanMethod accepts)
  | staPasswd =>
      cases event with
      | recvStaPasswd passwd =>
          cases accepts
          intro equality
          injection equality with isEmpty
          rw [← isEmpty] at wellFormed
          exact absurd wellFormed.1 (by decide)
      | _ => simp [BlufiEvent.accepted] at accepts
  | softapPasswd =>
      cases event with
      | recvSoftapPasswd passwd =>
          cases accepts
          intro equality
          injection equality with isEmpty
          rw [← isEmpty] at wellFormed
          exact absurd wellFormed.1 (by decide)
      | _ => simp [BlufiEvent.accepted] at accepts
  | softapSsid =>
      cases event with
      | recvSoftapSsid ssid =>
          cases accepts
          intro equality
          injection equality with _ sameLength
          injection sameLength with isZero
          exact ofNat_length_ne_zero wellFormed.1 wellFormed.2.1
            isZero.symm
      | _ => simp [BlufiEvent.accepted] at accepts
  | _ => cases spiller <;> simp [BlufiEvent.spillsOnto] at spill

theorem configFile_destructive (wifiAuthMax : Nat) :
    (configFile wifiAuthMax).Destructive BlufiEvent.WellFormed where
  changes := by
    intro spiller event field value spill wellFormed isAssigned
    have accepts := (configFile wifiAuthMax).assigns_of_assigned isAssigned
    exact cutAtFirstByte_accepted_ne spill wellFormed accepts
  idempotent := cutAtFirstByte_idempotent
  keepsStart := by
    have zeroReading :
        ∀ field, cutAtFirstByte field (Configuration.zero.reading field) =
          Configuration.zero.reading field := by
      intro field
      cases field <;> decide +kernel
    exact zeroReading
  elsewhere := by
    intro event field spill
    rw [RegisterFile.assigned_eq_none_iff]
    intro value accepts
    cases event <;> simp [configFile, BlufiEvent.spillsOnto] at spill <;>
      simp [configFile, BlufiEvent.accepted, ← spill.2] at accepts

/-! ## Histories of events -/

/-- The field that an event is for, unless the event is rejected. -/
def BlufiEvent.ownField (wifiAuthMax : Nat) (event : BlufiEvent) :
    Option ConfigField :=
  (event.accepted wifiAuthMax).map Prod.fst

/-- The event alters no field other than its own. -/
def AltersOwnField (wifiAuthMax : Nat) (history : List BlufiEvent)
    (event : BlufiEvent) : Prop :=
  ∀ before behind,
    configurationAfter wifiAuthMax history = .ok before →
      configurationAfter wifiAuthMax (history ++ [event]) = .ok behind →
        ∀ field, event.ownField wifiAuthMax ≠ some field →
          behind.reading field = before.reading field

/-- Both orders of two events lead to the same readings. -/
def Commute (wifiAuthMax : Nat) (configuration : Configuration)
    (left right : BlufiEvent) : Prop :=
  ∃ leftFirst rightFirst,
    after (Configuration.exampleEventCallback wifiAuthMax) configuration
        [left, right] = .ok leftFirst ∧
      after (Configuration.exampleEventCallback wifiAuthMax) configuration
          [right, left] = .ok rightFirst ∧
        leftFirst.reading = rightFirst.reading

theorem ownField_ne_some_iff {event : BlufiEvent} {field : ConfigField} :
    event.ownField wifiAuthMax ≠ some field ↔
      (configFile wifiAuthMax).assigned field event = none := by
  rw [RegisterFile.assigned_eq_none_iff, BlufiEvent.ownField, ne_eq,
    Option.map_eq_some_iff]
  constructor
  · intro notOwn value accepts
    exact notOwn ⟨(field, value), accepts, rfl⟩
  · intro never owned
    obtain ⟨⟨own, value⟩, accepts, same⟩ := owned
    subst same
    exact never value accepts

theorem altersOwnField_iff {history : List BlufiEvent} {event : BlufiEvent}
    (wellFormed :
      ∀ earlier, earlier ∈ history ++ [event] → earlier.WellFormed) :
    AltersOwnField wifiAuthMax history event ↔
      (configFile wifiAuthMax).ChangesOwnField history event := by
  obtain ⟨before, reachedBefore, readsBefore⟩ :=
    configurationAfter_refines wifiAuthMax
      fun earlier member =>
        wellFormed earlier (List.mem_append_left [event] member)
  obtain ⟨behind, reachedBehind, readsBehind⟩ :=
    configurationAfter_refines wifiAuthMax wellFormed
  rw [RegisterFile.ChangesOwnField, ← readsBefore, ← readsBehind]
  constructor
  · intro alters field unassigned
    exact alters before behind reachedBefore reachedBehind field
      (ownField_ne_some_iff.mpr unassigned)
  · intro changes first second reachedFirst reachedSecond field notOwn
    rw [reachedBefore] at reachedFirst
    rw [reachedBehind] at reachedSecond
    cases reachedFirst
    cases reachedSecond
    exact changes field (ownField_ne_some_iff.mp notOwn)

theorem twoEvents_refine (wifiAuthMax : Nat)
    (configuration : Configuration)
    {first second : BlufiEvent} (firstFormed : first.WellFormed)
    (secondFormed : second.WellFormed) :
    ∃ final,
      after (Configuration.exampleEventCallback wifiAuthMax) configuration
          [first, second] = .ok final ∧
        final.reading =
          (configFile wifiAuthMax).next
            ((configFile wifiAuthMax).next configuration.reading first)
            second := by
  obtain ⟨middle, _, handledFirst, readsMiddle⟩ :=
    event_refines wifiAuthMax configuration firstFormed
  obtain ⟨final, _, handledSecond, readsFinal⟩ :=
    event_refines wifiAuthMax middle secondFormed
  have start :
      after (Configuration.exampleEventCallback wifiAuthMax) configuration
        [] = .ok configuration :=
    after_nil
  have reachedMiddle := after_concat_of_ok start handledFirst
  refine ⟨final, after_concat_of_ok reachedMiddle handledSecond, ?_⟩
  rw [readsFinal, readsMiddle]

/-- Two events for different fields commute exactly when neither overwrites
the first byte of the other's field. -/
theorem commute_iff (configuration : Configuration)
    {left right : BlufiEvent} (leftFormed : left.WellFormed)
    (rightFormed : right.WellFormed)
    (different :
      ∀ field, left.ownField wifiAuthMax ≠ some field ∨
        right.ownField wifiAuthMax ≠ some field) :
    Commute wifiAuthMax configuration left right ↔
      (∀ field, left.spillsOnto = some field →
        right.ownField wifiAuthMax ≠ some field) ∧
        ∀ field, right.spillsOnto = some field →
          left.ownField wifiAuthMax ≠ some field := by
  have unassigned :
      ∀ field, (configFile wifiAuthMax).assigned field left = none ∨
        (configFile wifiAuthMax).assigned field right = none := by
    intro field
    rcases different field with notLeft | notRight
    · exact Or.inl (ownField_ne_some_iff.mp notLeft)
    · exact Or.inr (ownField_ne_some_iff.mp notRight)
  obtain ⟨leftFirst, reachedLeft, readsLeft⟩ :=
    twoEvents_refine wifiAuthMax configuration leftFormed rightFormed
  obtain ⟨rightFirst, reachedRight, readsRight⟩ :=
    twoEvents_refine wifiAuthMax configuration rightFormed leftFormed
  have commuteReadings :
      Commute wifiAuthMax configuration left right ↔
        leftFirst.reading = rightFirst.reading := by
    simp [Commute, reachedLeft, reachedRight]
  have apart := RegisterFile.next_comm_iff
    (configFile_destructive wifiAuthMax) leftFormed rightFormed unassigned
    configuration.reading
  rw [commuteReadings, readsLeft, readsRight, apart]
  simp only [ownField_ne_some_iff]
  rfl

/-- The fields end with their latest accepted values exactly when none of them
is spoiled; every event alters its own field only exactly when no NUL lands on
a field assigned before; two events for different fields commute, in any state,
exactly when neither NUL lands on the field of the other. -/
theorem fields_hold_latest_iff (wifiAuthMax : Nat)
    (history : List BlufiEvent)
    (wellFormed : ∀ event, event ∈ history → event.WellFormed) :
    ∃ configuration,
      configurationAfter wifiAuthMax history = .ok configuration ∧
        ((∀ field, configuration.reading field =
            (configFile wifiAuthMax).latestValue field history) ↔
          ∀ field, ¬ (configFile wifiAuthMax).Spoiled history field) ∧
        (AtEveryStep (AltersOwnField wifiAuthMax) history ↔
          AtEveryStep (configFile wifiAuthMax).SpillsOntoUnassigned
            history) ∧
        ∀ state left right, left ∈ history → right ∈ history →
          (∀ field, left.ownField wifiAuthMax ≠ some field ∨
            right.ownField wifiAuthMax ≠ some field) →
          (Commute wifiAuthMax state left right ↔
            (∀ field, left.spillsOnto = some field →
              right.ownField wifiAuthMax ≠ some field) ∧
              ∀ field, right.spillsOnto = some field →
                left.ownField wifiAuthMax ≠ some field) := by
  have destructive := configFile_destructive wifiAuthMax
  obtain ⟨configuration, reached, reads⟩ :=
    configurationAfter_refines wifiAuthMax wellFormed
  refine ⟨configuration, reached, ?_, ?_, ?_⟩
  · rw [reads]
    exact RegisterFile.holdsLatest_iff destructive wellFormed
  · have everyStep :
        AtEveryStep (AltersOwnField wifiAuthMax) history ↔
          AtEveryStep (configFile wifiAuthMax).ChangesOwnField history :=
      atEveryStep_congr fun front event behind shape =>
        altersOwnField_iff fun earlier member =>
          wellFormed earlier (by
            rw [shape, ← List.singleton_append, ← List.append_assoc]
            exact List.mem_append_left behind member)
    rw [everyStep,
      ← RegisterFile.atEveryState_holdsLatest_iff_changesOwnField,
      RegisterFile.atEveryState_holdsLatest_iff destructive wellFormed]
  · intro state left right leftMember rightMember different
    exact commute_iff state (wellFormed left leftMember)
      (wellFormed right rightMember) different

/-- A password, and then a name of 32 bytes. -/
def passwordThenLongName : List BlufiEvent :=
  [.recvStaPasswd (ascii "secret12"),
    .recvStaSsid (ascii "abcdefghijklmnopqrstuvwxyz012345")]

theorem passwordThenLongName_wellFormed :
    ∀ event, event ∈ passwordThenLongName → event.WellFormed := by
  intro event member
  simp only [passwordThenLongName, List.mem_cons, List.not_mem_nil,
    or_false] at member
  rcases member with isPassword | isName
  · rw [isPassword]
    exact ⟨by decide, by decide, by decide⟩
  · rw [isName]
    exact ⟨by decide, by decide, by decide⟩

/-- The name leaves an empty password. -/
theorem longName_clears_password :
    (∀ event, event ∈ passwordThenLongName → event.WellFormed) ∧
      (configFile 10).latestValue .staPasswd passwordThenLongName =
        .octets (ascii "secret12") ∧
      (configurationAfter 10 passwordThenLongName).map
          (Configuration.reading · .staPasswd) = .ok (.octets []) ∧
      ¬ ∃ configuration,
        configurationAfter 10 passwordThenLongName = .ok configuration ∧
          ∀ field, configuration.reading field =
            (configFile 10).latestValue field passwordThenLongName := by
  have accepted :
      (configFile 10).latestValue .staPasswd passwordThenLongName =
        .octets (ascii "secret12") := by
    decide +kernel
  have shown :
      (configurationAfter 10 passwordThenLongName).map
          (Configuration.reading · .staPasswd) = .ok (.octets []) := by
    decide +kernel
  refine ⟨passwordThenLongName_wellFormed, accepted, shown, ?_⟩
  intro holds
  obtain ⟨configuration, reached, latestValues⟩ := holds
  rw [reached] at shown
  have empty : configuration.reading .staPasswd = .octets [] :=
    Except.ok.inj shown
  have kept := (latestValues .staPasswd).trans accepted
  rw [empty] at kept
  exact absurd kept (by decide)

theorem fields_hold_latest_iff_passwordThenLongName :
    ∃ configuration,
      configurationAfter 10 passwordThenLongName = .ok configuration ∧
        ((∀ field, configuration.reading field =
            (configFile 10).latestValue field passwordThenLongName) ↔
          ∀ field, ¬ (configFile 10).Spoiled passwordThenLongName field) := by
  obtain ⟨configuration, reached, latestIff, _⟩ :=
    fields_hold_latest_iff 10 passwordThenLongName
      passwordThenLongName_wellFormed
  exact ⟨configuration, reached, latestIff⟩

end Esp32Source.Blufi
