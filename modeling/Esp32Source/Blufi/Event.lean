import Esp32Source.Wifi.Config

/-!
# Events of the provisioning firmware

The events that the three handlers of `blufi_example_main.c` receive, with the
parameters that the handlers read.  Where a handler asks its environment, the
event carries the answer: the mode `esp_wifi_get_mode` reports, the addresses
`malloc` returns, the records of a scan.
-/

namespace Esp32Source.Blufi

open Memory

inductive WifiMode where
  | null
  | sta
  | ap
  | apsta
  deriving DecidableEq, Repr

/-- The parameters of `WIFI_EVENT_STA_CONNECTED` that are read. -/
structure StaConnected where
  bssid : Buffer 6
  ssid : Buffer 32
  ssidLen : Nat
  ssidLen_le : ssidLen ≤ 32
  deriving DecidableEq, Repr

/-- The name of the access point: the first `ssid_len` bytes. -/
def StaConnected.name (event : StaConnected) : List UInt8 :=
  event.ssid.window 0 event.ssidLen

theorem StaConnected.length_name (event : StaConnected) :
    event.name.length = event.ssidLen :=
  event.ssid.length_window (by
    rw [Nat.zero_add]
    exact event.ssidLen_le)

theorem StaConnected.length_name_le (event : StaConnected) :
    event.name.length ≤ 32 := by
  rw [event.length_name]
  exact event.ssidLen_le

/-- The members of `wifi_ap_record_t` that are read. -/
structure ApRecord where
  ssid : Buffer 33
  rssi : Int
  deriving DecidableEq, Repr

/-- The outcome of a scan and of the two allocations that report it. -/
structure ScanDone where
  records : List ApRecord
  apListAllocated : Bool
  blufiApListAllocated : Bool
  deriving DecidableEq, Repr

inductive WifiEvent where
  | staStart
  | staConnected (event : StaConnected)
  | staDisconnected
  | apStart (mode : WifiMode)
  | scanDone (scan : ScanDone)
  | other
  deriving DecidableEq, Repr

inductive IpEvent where
  | staGotIp (mode : WifiMode)
  | other
  deriving DecidableEq, Repr

/-- The `ESP_BLUFI_EVENT_…` events of `example_event_callback`. -/
inductive BlufiEvent where
  | initFinish
  | deinitFinish
  | bleConnect (allocated : Option Nat)
  | bleDisconnect
  | setWifiOpmode (opMode : WifiMode)
  | reqConnectToAp
  | reqDisconnectFromAp
  | reportError (state : Nat)
  | getWifiStatus (mode : WifiMode)
  | recvSlaveDisconnectBle
  | deauthenticateSta
  | recvStaBssid (bssid : Buffer 6)
  | recvStaSsid (ssid : List UInt8)
  | recvStaPasswd (passwd : List UInt8)
  | recvSoftapSsid (ssid : List UInt8)
  | recvSoftapPasswd (passwd : List UInt8)
  | recvSoftapMaxConnNum (maxConnNum : Int)
  | recvSoftapAuthMode (authMode : Nat)
  | recvSoftapChannel (channel : UInt8)
  | getWifiList
  | recvCustomData (data : List UInt8)
  | recvUsername
  | recvCaCert
  | recvClientCert
  | recvServerCert
  | recvClientPrivKey
  | recvServerPrivKey
  | other
  deriving DecidableEq, Repr

end Esp32Source.Blufi
