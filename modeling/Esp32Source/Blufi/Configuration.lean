import Esp32Source.Blufi.Event
import Esp32Source.Machine.History

/-!
# Configuration events of the BLUFI callback

The `RECV_…` cases of `example_event_callback` fill `sta_config` and
`ap_config`.  A string is stored with `strncpy`, and a NUL is stored at the
index of its length, which for a string as long as its array is the first byte
of the next member.

What one such copy leaves of the arrays and of the member behind them is the
content of `copyField_ssid` and `copyField_passwd`; the cases for the two
interfaces use them at the sizes of their records.
-/

namespace Esp32Source.Blufi

open Memory Machine Wifi

/-- `sta_config` and `ap_config` -/
structure Configuration where
  sta : StaConfig
  ap : ApConfig
  deriving DecidableEq, Repr

def Configuration.zero : Configuration where
  sta := StaConfig.zero
  ap := ApConfig.zero

/-- The calls of `esp_wifi_set_config`. -/
inductive ConfigCall where
  | setSta (config : StaConfig)
  | setAp (config : ApConfig)
  deriving DecidableEq, Repr

/-- `strncpy(field, payload, len); field[len] = '\0';` for the array that
starts at `offset`. -/
def copyField {size : Nat} (lead : Buffer size) (offset : Nat)
    (payload : List UInt8) : Except Fault (Buffer size) := do
  let copied ← lead.store offset (strncpyBytes payload payload.length)
  copied.store (offset + payload.length) [0]

/-- The conversion of an `int` to `uint8_t`. -/
def toByte (value : Int) : UInt8 :=
  UInt8.ofNat (value % 256).toNat

/-- The `RECV_…` cases.  `wifiAuthMax` is `WIFI_AUTH_MAX`. -/
def Configuration.exampleEventCallback (wifiAuthMax : Nat)
    (configuration : Configuration) :
    BlufiEvent → Except Fault (Configuration × List ConfigCall)
  | .recvStaBssid bssid =>
      let sta := { configuration.sta with bssid, bssidSet := true }
      .ok ({ configuration with sta }, [.setSta sta])
  | .recvStaSsid ssid => do
      let lead ← copyField configuration.sta.lead ssidOffset ssid
      let sta := { configuration.sta with lead }
      return ({ configuration with sta }, [.setSta sta])
  | .recvStaPasswd passwd => do
      let lead ← copyField configuration.sta.lead passwordOffset passwd
      let sta := { configuration.sta with lead }
      return ({ configuration with sta }, [.setSta sta])
  | .recvSoftapSsid ssid => do
      let copied ← copyField configuration.ap.lead ssidOffset ssid
      let lead ← copied.store behindPassword [UInt8.ofNat ssid.length]
      let ap := { configuration.ap with lead }
      return ({ configuration with ap }, [.setAp ap])
  | .recvSoftapPasswd passwd => do
      let lead ← copyField configuration.ap.lead passwordOffset passwd
      let ap := { configuration.ap with lead }
      return ({ configuration with ap }, [.setAp ap])
  | .recvSoftapMaxConnNum maxConnNum =>
      if maxConnNum > 4 then .ok (configuration, [])
      else
        let maxConnection := toByte maxConnNum
        let ap := { configuration.ap with maxConnection }
        .ok ({ configuration with ap }, [.setAp ap])
  | .recvSoftapAuthMode authmode =>
      if authmode ≥ wifiAuthMax then .ok (configuration, [])
      else
        let ap := { configuration.ap with authmode }
        .ok ({ configuration with ap }, [.setAp ap])
  | .recvSoftapChannel channel =>
      if channel > 13 then .ok (configuration, [])
      else
        let ap := { configuration.ap with channel }
        .ok ({ configuration with ap }, [.setAp ap])
  | _ => .ok (configuration, [])

/-- The two records after a history of events, from zero. -/
def configurationAfter (wifiAuthMax : Nat) (history : List BlufiEvent) :
    Except Fault Configuration :=
  after (Configuration.exampleEventCallback wifiAuthMax) Configuration.zero
    history

/-! ## One string -/

/-- What `copyField` leaves: the string in every window that starts with its
array, the bytes that the string and its NUL do not reach, and the NUL itself
in a window behind the string. -/
structure CopiesField {size : Nat} (lead stored : Buffer size)
    (offset : Nat) (payload : List UInt8) : Prop where
  text : ∀ width, payload.length ≤ width → offset + width ≤ size →
    cText (stored.window offset width) = payload
  elsewhere : ∀ start length,
    start + length ≤ offset ∨ offset + payload.length + 1 ≤ start →
      stored.window start length = lead.window start length
  terminator : ∀ start length, start = offset + payload.length →
    1 ≤ length → start + length ≤ size →
      stored.window start length =
        0 :: (lead.window start length).tail

theorem copyField_copies {size : Nat} (lead : Buffer size)
    (offset : Nat) {payload : List UInt8} (free : NulFree payload)
    (fits : offset + payload.length + 1 ≤ size) :
    ∃ stored, copyField lead offset payload = .ok stored ∧
      CopiesField lead stored offset payload := by
  obtain ⟨copied, first, copiedCells⟩ :=
    lead.store_of_fits offset payload (by omega)
  obtain ⟨stored, second, storedCells⟩ :=
    copied.store_of_fits (offset + payload.length) [0] fits
  have cells : stored.cells = patch offset (payload ++ [0]) lead.cells := by
    rw [storedCells, copiedCells, patch_patch_adjacent]
    rw [lead.length_cells]
    exact fits
  have bothFit : offset + (payload ++ [0]).length ≤ lead.cells.length := by
    rw [lead.length_cells, List.length_append]
    exact fits
  refine ⟨stored, ?_, ?_, ?_, ?_⟩
  · rw [copyField, strncpyBytes_of_nulFree free, first]
    exact second
  · intro width covers inside
    rw [Buffer.window, cells]
    rcases Nat.lt_or_eq_of_le covers with shorter | whole
    · rw [window_patch_inside (by rw [lead.length_cells]; exact inside)
        (Nat.le_refl offset)
        (by rw [List.length_append, List.length_singleton]; omega),
        Nat.sub_self, patch_zero, overlay, List.append_assoc,
        List.singleton_append, cText_terminated free]
    · rw [← whole, window_patch_front bothFit (by simp), List.take_left,
        cText_of_nulFree free]
  · intro start length apart
    rw [Buffer.window, cells, window_patch_disjoint bothFit]
    · rfl
    · rw [List.length_append, List.length_singleton]
      omega
  · intro start length isBehind nonempty inside
    subst isBehind
    rw [Buffer.window_store_inside second inside (Nat.le_refl _)
      (by rw [List.length_singleton]; omega), Nat.sub_self, patch_zero,
      overlay, List.length_singleton, List.drop_one,
      List.singleton_append,
      Buffer.window_store_disjoint first (Or.inr (Nat.le_refl _))]

/-- The window right behind an array of `width` bytes: the NUL of a string that
fills the array is its first byte. -/
theorem CopiesField.behind {size : Nat} {lead stored : Buffer size}
    {offset : Nat} {payload : List UInt8}
    (copies : CopiesField lead stored offset payload)
    (width length : Nat) (short : payload.length ≤ width)
    (nonempty : 1 ≤ length) (inside : offset + width + length ≤ size) :
    stored.window (offset + width) length =
      if payload.length = width then
        0 :: (lead.window (offset + width) length).tail
      else lead.window (offset + width) length := by
  by_cases full : payload.length = width
  · rw [if_pos full]
    exact copies.terminator (offset + width) length (by rw [full]) nonempty
      inside
  · rw [if_neg full]
    exact copies.elsewhere (offset + width) length (by omega)

/-- What a name leaves of the three members at the front of a record. -/
theorem copyField_ssid {size : Nat} (lead : Buffer size)
    {ssid : List UInt8} (short : ssid.length ≤ 32) (free : NulFree ssid)
    (holdsArrays : 96 < size) :
    ∃ stored, copyField lead ssidOffset ssid = .ok stored ∧
      ssidText stored = ssid ∧
      passwordText stored =
        (if ssid.length = 32 then [] else passwordText lead) ∧
      ∀ length, stored.window behindPassword length =
        lead.window behindPassword length := by
  obtain ⟨stored, success, copies⟩ :=
    copyField_copies lead 0 free (by omega)
  refine ⟨stored, success, copies.text 32 short (by omega), ?_,
    fun length => copies.elsewhere 96 length (by omega)⟩
  have password : stored.window passwordOffset 64 = _ :=
    copies.behind 32 64 short (by decide) (by omega)
  rw [passwordText, password]
  by_cases full : ssid.length = 32
  · rw [if_pos full, if_pos full, cText_cons_zero]
  · rw [if_neg full, if_neg full]
    rfl

/-- What a password leaves of them. -/
theorem copyField_passwd {size : Nat} (lead : Buffer size)
    {passwd : List UInt8} (short : passwd.length ≤ 64)
    (free : NulFree passwd) (holdsArrays : 96 < size) :
    ∃ stored, copyField lead passwordOffset passwd = .ok stored ∧
      ssidText stored = ssidText lead ∧
      passwordText stored = passwd ∧
      ∀ length, 1 ≤ length → 96 + length ≤ size →
        stored.window behindPassword length =
          if passwd.length = 64 then
            0 :: (lead.window behindPassword length).tail
          else lead.window behindPassword length := by
  obtain ⟨stored, success, copies⟩ :=
    copyField_copies lead 32 free (by omega)
  refine ⟨stored, success, ?_, copies.text 64 short (by omega),
    fun length nonempty inside =>
      copies.behind 64 length short nonempty inside⟩
  have name : stored.window ssidOffset 32 = lead.window ssidOffset 32 :=
    copies.elsewhere 0 32 (by omega)
  rw [ssidText, name]
  rfl

end Esp32Source.Blufi
