import Esp32Source.Memory.CString

/-!
# The Wi-Fi configuration records

`wifi_sta_config_t` and `wifi_ap_config_t` begin with the two byte arrays that
the firmware fills through pointers.  The arrays and the member behind them
are kept in memory order as `lead`, so that a store past the end of an array
lands where it does in the record: the SSID at 0, the password at 32, and at
96 the four bytes of `scan_method`, or the byte `ssid_len`.

A store that would run over the end of `lead` is a fault.
-/

namespace Esp32Source.Wifi

open Memory

/-- `wifi_config_t.sta` -/
structure StaConfig where
  lead : Buffer 100
  bssidSet : Bool
  bssid : Buffer 6
  deriving DecidableEq, Repr

/-- `wifi_config_t.ap` -/
structure ApConfig where
  lead : Buffer 97
  channel : UInt8
  authmode : Nat
  maxConnection : UInt8
  deriving DecidableEq, Repr

def StaConfig.zero : StaConfig where
  lead := Buffer.zero 100
  bssidSet := false
  bssid := Buffer.zero 6

def ApConfig.zero : ApConfig where
  lead := Buffer.zero 97
  channel := 0
  authmode := 0
  maxConnection := 0

def ssidOffset : Nat := 0
def passwordOffset : Nat := 32
def behindPassword : Nat := 96

/-- The SSID array read up to its first NUL or its end. -/
def ssidText {size : Nat} (lead : Buffer size) : List UInt8 :=
  cText (lead.window ssidOffset 32)

/-- The password array read up to its first NUL or its end. -/
def passwordText {size : Nat} (lead : Buffer size) : List UInt8 :=
  cText (lead.window passwordOffset 64)

end Esp32Source.Wifi
