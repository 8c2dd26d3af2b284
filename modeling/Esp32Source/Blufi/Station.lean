import Esp32Source.Blufi.Event
import Esp32Source.Machine.History

/-!
# The station and its three event handlers

`wifi_event_handler`, `ip_event_handler` and the connection cases of
`example_event_callback` share the event bit `CONNECTED_BIT`, the flags
`gl_sta_connected` and `ble_is_connected`, and the address and name of the
access point.  The handlers run one at a time.

A handler is a function from the station to the station and the calls that it
makes, in their order.
-/

namespace Esp32Source.Blufi

open Memory Machine

structure Station where
  connectedBit : Bool
  glStaConnected : Bool
  bleIsConnected : Bool
  glStaBssid : Buffer 6
  glStaSsid : Buffer 32
  glStaSsidLen : Nat
  deriving DecidableEq, Repr

def Station.initial : Station where
  connectedBit := false
  glStaConnected := false
  bleIsConnected := false
  glStaBssid := Buffer.zero 6
  glStaSsid := Buffer.zero 32
  glStaSsidLen := 0

/-- `esp_blufi_extra_info_t` with `sta_bssid_set` -/
structure ExtraInfo where
  staBssid : Buffer 6
  staSsid : Buffer 32
  staSsidLen : Nat
  deriving DecidableEq, Repr

/-- The name that is reported: the first `sta_ssid_len` bytes. -/
def ExtraInfo.name (info : ExtraInfo) : List UInt8 :=
  info.staSsid.window 0 info.staSsidLen

inductive StaConnState where
  | success
  | fail
  deriving DecidableEq, Repr

inductive Call where
  | wifiConnect
  | wifiDisconnect
  | wifiSetMode (mode : WifiMode)
  | sendWifiConnReport (mode : WifiMode) (state : StaConnState)
      (info : Option ExtraInfo)
  | sendWifiList (list : List ApRecord)
  | sendErrorInfo (state : Nat)
  | wifiScanStart
  | wifiScanStop
  | advStart
  | advStop
  | blufiDisconnect
  | securityInit
  | securityDeinit
  deriving DecidableEq, Repr

/-- The station info of a report. -/
def Station.info (station : Station) : ExtraInfo where
  staBssid := station.glStaBssid
  staSsid := station.glStaSsid
  staSsidLen := station.glStaSsidLen

def ipEventHandler (station : Station) : IpEvent → Station × List Call
  | .staGotIp mode =>
      ({ station with connectedBit := true },
        if station.bleIsConnected then
          [.sendWifiConnReport mode .success (some station.info)]
        else [])
  | .other => (station, [])

/-- The case of `WIFI_EVENT_SCAN_DONE`. -/
def scanDoneCalls (station : Station) (scan : ScanDone) : List Call :=
  if scan.records.length = 0 then []
  else if ¬ scan.apListAllocated then []
  else if ¬ scan.blufiApListAllocated then []
  else if station.bleIsConnected then
    [.sendWifiList scan.records, .wifiScanStop]
  else [.wifiScanStop]

def wifiEventHandler (station : Station) : WifiEvent → Station × List Call
  | .staStart => (station, [.wifiConnect])
  | .staConnected event =>
      ({ station with
          glStaConnected := true
          glStaBssid := event.bssid
          glStaSsid := station.glStaSsid.storeFront event.name
            event.length_name_le
          glStaSsidLen := event.ssidLen }, [])
  | .staDisconnected =>
      ({ station with
          glStaConnected := false
          glStaSsid := Buffer.zero 32
          glStaBssid := Buffer.zero 6
          glStaSsidLen := 0
          connectedBit := false }, [.wifiConnect])
  | .apStart mode =>
      (station,
        if station.bleIsConnected then
          if station.glStaConnected then
            [.sendWifiConnReport mode .success none]
          else [.sendWifiConnReport mode .fail none]
        else [])
  | .scanDone scan => (station, scanDoneCalls station scan)
  | .other => (station, [])

/-- The cases of `example_event_callback` other than those that fill the
configuration records. -/
def Station.exampleEventCallback (station : Station) :
    BlufiEvent → Station × List Call
  | .initFinish => (station, [.advStart])
  | .bleConnect _ =>
      ({ station with bleIsConnected := true }, [.advStop, .securityInit])
  | .bleDisconnect =>
      ({ station with bleIsConnected := false },
        [.securityDeinit, .advStart])
  | .setWifiOpmode opMode => (station, [.wifiSetMode opMode])
  | .reqConnectToAp => (station, [.wifiDisconnect, .wifiConnect])
  | .reqDisconnectFromAp => (station, [.wifiDisconnect])
  | .reportError state => (station, [.sendErrorInfo state])
  | .getWifiStatus mode =>
      (station,
        if station.glStaConnected then
          [.sendWifiConnReport mode .success (some station.info)]
        else [.sendWifiConnReport mode .fail none])
  | .recvSlaveDisconnectBle => (station, [.blufiDisconnect])
  | .getWifiList => (station, [.wifiScanStart])
  | _ => (station, [])

inductive StationEvent where
  | wifi (event : WifiEvent)
  | ip (event : IpEvent)
  | blufi (event : BlufiEvent)
  deriving DecidableEq, Repr

def Station.handle (station : Station) :
    StationEvent → Station × List Call
  | .wifi event => wifiEventHandler station event
  | .ip event => ipEventHandler station event
  | .blufi event => station.exampleEventCallback event

def stationAfter (history : List StationEvent) : Station :=
  final Station.handle Station.initial history

/-- The calls that an event makes after a history. -/
def callsOf (history : List StationEvent) (event : StationEvent) :
    List Call :=
  ((stationAfter history).handle event).2

end Esp32Source.Blufi
