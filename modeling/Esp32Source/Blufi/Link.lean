import Esp32Source.Blufi.Station

/-!
# What the handlers know about the link

The link of a history is up with the access point of an event
`WIFI_EVENT_STA_CONNECTED` when neither another such event nor a
`WIFI_EVENT_STA_DISCONNECTED` came after it.  `gl_sta_connected` and the
stored address and name follow the link through every history.

`CONNECTED_BIT` is set by a handler that does not look at the link, and
`esp_wifi_connect` is called by one that does not look at who ended it.  The
last two sections say in which histories these are right nevertheless.
-/

namespace Esp32Source.Blufi

open Memory Machine

/-! ## The link of a history -/

/-- What an event does to the link: up with an access point, or down. -/
def linkChange : StationEvent → Option (Option StaConnected)
  | .wifi (.staConnected event) => some (some event)
  | .wifi .staDisconnected => some none
  | _ => none

/-- The latest change of the link was the connection `event`. -/
def LinkUp (history : List StationEvent) (event : StaConnected) : Prop :=
  ∃ before behind,
    history = before ++ .wifi (.staConnected event) :: behind ∧
      ∀ later, later ∈ behind →
        (∀ other, later ≠ .wifi (.staConnected other)) ∧
          later ≠ .wifi .staDisconnected

theorem linkChange_eq_none_iff {event : StationEvent} :
    linkChange event = none ↔
      (∀ other, event ≠ .wifi (.staConnected other)) ∧
        event ≠ .wifi .staDisconnected := by
  cases event with
  | wifi event => cases event <;> simp [linkChange]
  | _ => simp [linkChange]

theorem linkChange_eq_connected_iff {event : StationEvent}
    {linked : StaConnected} :
    linkChange event = some (some linked) ↔
      event = .wifi (.staConnected linked) := by
  cases event with
  | wifi event => cases event <;> simp [linkChange]
  | _ => simp [linkChange]

theorem linkUp_iff_latest {history : List StationEvent}
    {event : StaConnected} :
    LinkUp history event ↔
      latest linkChange history = some (some event) := by
  rw [latest_eq_some_iff]
  constructor
  · intro up
    obtain ⟨before, behind, shape, quiet⟩ := up
    exact ⟨before, _, behind, shape, rfl, fun later member =>
      linkChange_eq_none_iff.mpr (quiet later member)⟩
  · intro isLatest
    obtain ⟨before, source, behind, shape, connects, quiet⟩ := isLatest
    rw [linkChange_eq_connected_iff.mp connects] at shape
    exact ⟨before, behind, shape, fun later member =>
      linkChange_eq_none_iff.mp (quiet later member)⟩

theorem linkUp_concat_of_quiet {event : StationEvent}
    (quiet : linkChange event = none) (history : List StationEvent)
    (linked : StaConnected) :
    LinkUp (history ++ [event]) linked ↔ LinkUp history linked := by
  rw [linkUp_iff_latest, linkUp_iff_latest, latest_concat_of_none quiet]

theorem linkUp_concat_connected (history : List StationEvent)
    (event linked : StaConnected) :
    LinkUp (history ++ [.wifi (.staConnected event)]) linked ↔
      event = linked := by
  have connects : linkChange (.wifi (.staConnected event)) =
      some (some event) :=
    rfl
  rw [linkUp_iff_latest, latest_concat_of_some connects]
  simp

theorem not_linkUp_concat_disconnected (history : List StationEvent)
    (linked : StaConnected) :
    ¬ LinkUp (history ++ [.wifi .staDisconnected]) linked := by
  have disconnects : linkChange (.wifi .staDisconnected) = some none :=
    rfl
  rw [linkUp_iff_latest, latest_concat_of_some disconnects]
  simp

/-! ## The station follows the link -/

/-- The info names the access point of the event. -/
structure Names (info : ExtraInfo) (event : StaConnected) : Prop where
  bssid : info.staBssid = event.bssid
  length : info.staSsidLen = event.ssidLen
  name : info.name = event.name

structure Tracks (history : List StationEvent) (station : Station) :
    Prop where
  connected : station.glStaConnected = true ↔
    ∃ event, LinkUp history event
  info : ∀ event, LinkUp history event → Names station.info event

/-- An event that does not change the link leaves what the station knows of
it. -/
theorem handle_of_quiet (station : Station) {event : StationEvent}
    (quiet : linkChange event = none) :
    (station.handle event).1.glStaConnected = station.glStaConnected ∧
      (station.handle event).1.info = station.info := by
  cases event with
  | wifi event =>
      cases event with
      | staConnected event => simp [linkChange] at quiet
      | staDisconnected => simp [linkChange] at quiet
      | _ => exact ⟨rfl, rfl⟩
  | ip event => cases event <;> exact ⟨rfl, rfl⟩
  | blufi event => cases event <;> exact ⟨rfl, rfl⟩

theorem handle_connected_names (station : Station) (event : StaConnected) :
    Names (station.handle (.wifi (.staConnected event))).1.info event := by
  have stored := station.glStaSsid.window_storeFront event.name
    event.length_name_le
  rw [event.length_name] at stored
  exact ⟨rfl, rfl, stored⟩

theorem tracks_concat {history : List StationEvent} {station : Station}
    (tracks : Tracks history station) (event : StationEvent) :
    Tracks (history ++ [event]) (station.handle event).1 := by
  cases change : linkChange event with
  | none =>
      obtain ⟨sameFlag, sameInfo⟩ := handle_of_quiet station change
      refine ⟨?_, ?_⟩
      · rw [sameFlag, tracks.connected]
        simp only [linkUp_concat_of_quiet change]
      · intro linked up
        rw [sameInfo]
        exact tracks.info linked
          ((linkUp_concat_of_quiet change history linked).mp up)
  | some now =>
      cases now with
      | none =>
          have isDisconnect : event = .wifi .staDisconnected := by
            cases event with
            | wifi event => cases event <;> simp_all [linkChange]
            | _ => simp [linkChange] at change
          subst isDisconnect
          refine ⟨?_, ?_⟩
          · refine iff_of_false Bool.false_ne_true ?_
            intro up
            obtain ⟨linked, up⟩ := up
            exact not_linkUp_concat_disconnected history linked up
          · intro linked up
            exact absurd up (not_linkUp_concat_disconnected history linked)
      | some linked =>
          rw [linkChange_eq_connected_iff.mp change]
          refine ⟨?_, ?_⟩
          · exact iff_of_true rfl
              ⟨linked, (linkUp_concat_connected history linked linked).mpr
                rfl⟩
          · intro named up
            rw [← (linkUp_concat_connected history linked named).mp up]
            exact handle_connected_names station linked

/-- After every history the station knows the link. -/
theorem stationAfter_tracks (history : List StationEvent) :
    Tracks history (stationAfter history) := by
  have keeps :
      ∀ front station event, Tracks front station →
        Tracks (front ++ [event]) (station.handle event).1 :=
    fun _ _ event tracks => tracks_concat tracks event
  refine final_induction ?_ keeps history
  refine ⟨iff_of_false Bool.false_ne_true ?_, ?_⟩
  · intro up
    obtain ⟨linked, up⟩ := up
    rw [linkUp_iff_latest] at up
    cases up
  · intro linked up
    rw [linkUp_iff_latest] at up
    cases up

/-- A status request reports success exactly while the link is up, then with
the address and name of the access point, and failure without info
otherwise. -/
theorem getWifiStatus_reports_link (history : List StationEvent)
    (mode : WifiMode) :
    ∃ state info,
      callsOf history (.blufi (.getWifiStatus mode)) =
          [.sendWifiConnReport mode state info] ∧
        (state = .success ↔ ∃ event, LinkUp history event) ∧
        (∀ event, LinkUp history event →
          ∃ shown, info = some shown ∧ Names shown event) ∧
        ((¬ ∃ event, LinkUp history event) →
          state = .fail ∧ info = none) := by
  have tracks := stationAfter_tracks history
  cases connected : (stationAfter history).glStaConnected with
  | true =>
      have up := tracks.connected.mp connected
      refine ⟨.success, some (stationAfter history).info, ?_,
        iff_of_true rfl up, ?_, fun down => absurd up down⟩
      · simp [callsOf, Station.handle, Station.exampleEventCallback,
          connected]
      · intro event linked
        exact ⟨_, rfl, tracks.info event linked⟩
  | false =>
      have down : ¬ ∃ event, LinkUp history event := by
        rw [← tracks.connected, connected]
        exact Bool.false_ne_true
      refine ⟨.fail, none, ?_, iff_of_false StaConnState.noConfusion down,
        fun event linked => absurd ⟨event, linked⟩ down,
        fun _ => ⟨rfl, rfl⟩⟩
      simp [callsOf, Station.handle, Station.exampleEventCallback,
        connected]

/-! ## The event bit -/

def BitOnlyWhileConnected (history : List StationEvent) : Prop :=
  (stationAfter history).connectedBit = true →
    (stationAfter history).glStaConnected = true

/-- Every success that `ip_event_handler` reports for the event names the
access point of the link, and the link is up. -/
def IpReportsLink (history : List StationEvent) (event : StationEvent) :
    Prop :=
  ∀ ipEvent mode info, event = .ip ipEvent →
    .sendWifiConnReport mode .success info ∈ callsOf history event →
      ∃ linked shown,
        LinkUp history linked ∧ info = some shown ∧ Names shown linked

/-- If the event is an address event, the link is up. -/
def GotIpWhileLinkUp (history : List StationEvent) (event : StationEvent) :
    Prop :=
  ∀ mode, event = .ip (.staGotIp mode) → ∃ linked, LinkUp history linked

/-- Only an address event sets the bit. -/
theorem handle_connectedBit (station : Station) {event : StationEvent}
    (noAddress : ∀ mode, event ≠ .ip (.staGotIp mode))
    (bit : (station.handle event).1.connectedBit = true) :
    station.connectedBit = true ∧ event ≠ .wifi .staDisconnected := by
  cases event with
  | wifi event =>
      cases event with
      | staDisconnected => cases bit
      | _ => exact ⟨bit, by simp⟩
  | ip event =>
      cases event with
      | staGotIp mode => exact absurd rfl (noAddress mode)
      | other => exact ⟨bit, by simp⟩
  | blufi event => cases event <;> exact ⟨bit, by simp⟩

/-- Only a loss of the link clears the flag. -/
theorem handle_glStaConnected (station : Station) {event : StationEvent}
    (noLoss : event ≠ .wifi .staDisconnected)
    (connected : station.glStaConnected = true) :
    (station.handle event).1.glStaConnected = true := by
  cases event with
  | wifi event =>
      cases event with
      | staDisconnected => exact absurd rfl noLoss
      | staConnected linked => rfl
      | _ => exact connected
  | ip event => cases event <;> exact connected
  | blufi event => cases event <;> exact connected

theorem bitOnlyWhileConnected_concat_iff {history : List StationEvent}
    (event : StationEvent) (holds : BitOnlyWhileConnected history) :
    BitOnlyWhileConnected (history ++ [event]) ↔
      GotIpWhileLinkUp history event := by
  have next : stationAfter (history ++ [event]) =
      ((stationAfter history).handle event).1 :=
    final_concat history event
  rw [BitOnlyWhileConnected, next]
  by_cases address : ∃ mode, event = .ip (.staGotIp mode)
  · obtain ⟨mode, isAddress⟩ := address
    subst isAddress
    constructor
    · intro connected _ _
      exact (stationAfter_tracks history).connected.mp (connected rfl)
    · intro linkUp _
      exact (stationAfter_tracks history).connected.mpr (linkUp mode rfl)
  · have noAddress : ∀ mode, event ≠ .ip (.staGotIp mode) :=
      fun mode isAddress => address ⟨mode, isAddress⟩
    refine iff_of_true ?_ ?_
    · intro bit
      obtain ⟨bitBefore, noLoss⟩ :=
        handle_connectedBit (stationAfter history) noAddress bit
      exact handle_glStaConnected (stationAfter history) noLoss
        (holds bitBefore)
    · intro mode isAddress
      exact absurd isAddress (noAddress mode)

theorem ipReportsLink_of_gotIpWhileLinkUp {history : List StationEvent}
    {event : StationEvent} (linkUp : GotIpWhileLinkUp history event) :
    IpReportsLink history event := by
  intro ipEvent mode info isIp reported
  subst isIp
  cases ipEvent with
  | other => cases reported
  | staGotIp reportedMode =>
      obtain ⟨linked, up⟩ := linkUp reportedMode rfl
      have names := (stationAfter_tracks history).info linked up
      rw [callsOf, Station.handle, ipEventHandler] at reported
      cases ble : (stationAfter history).bleIsConnected with
      | false =>
          rw [ble] at reported
          cases reported
      | true =>
          rw [ble, if_pos rfl, List.mem_singleton] at reported
          cases reported
          exact ⟨linked, _, up, rfl, names⟩

/-- The bit is set only while the station is connected, and the successes that
`ip_event_handler` reports name the link, exactly when no address event is
delivered while the link is down. -/
theorem connectedBit_follows_link_iff (history : List StationEvent) :
    (AtEveryState BitOnlyWhileConnected history ∧
        AtEveryStep IpReportsLink history) ↔
      AtEveryStep GotIpWhileLinkUp history := by
  have statesIff :
      AtEveryState BitOnlyWhileConnected history ↔
        AtEveryStep GotIpWhileLinkUp history := by
    refine atEveryState_iff_atEveryStep (fun _ => True) ?_ ?_
      (fun _ _ => trivial)
    · intro bit
      cases bit
    · intro front event _ _ everywhere
      exact bitOnlyWhileConnected_concat_iff event everywhere.last
  rw [statesIff]
  refine and_iff_left_of_imp ?_
  intro linkUp front event behind shape
  exact ipReportsLink_of_gotIpWhileLinkUp
    (linkUp front event behind shape)

def accessPoint : StaConnected where
  bssid := ⟨[2, 0, 0, 0, 0, 1], rfl⟩
  ssid := ⟨ascii "home" ++ List.replicate 28 0, rfl⟩
  ssidLen := 4
  ssidLen_le := by decide

/-- An address event that is delivered after the loss of the link. -/
def lateGotIp : List StationEvent :=
  [.blufi (.bleConnect none), .wifi .staStart,
    .wifi (.staConnected accessPoint), .wifi .staDisconnected,
    .ip (.staGotIp .sta)]

/-- The late event sets the bit, and the phone is told of a connection to an
access point without a name. -/
theorem lateGotIp_sets_connectedBit :
    (stationAfter lateGotIp).connectedBit = true ∧
      (stationAfter lateGotIp).glStaConnected = false ∧
      callsOf (lateGotIp.take 4) (.ip (.staGotIp .sta)) =
        [.sendWifiConnReport .sta .success
          (some { staBssid := Buffer.zero 6, staSsid := Buffer.zero 32,
                  staSsidLen := 0 })] ∧
      ¬ AtEveryState BitOnlyWhileConnected lateGotIp ∧
      ¬ AtEveryStep IpReportsLink lateGotIp := by
  have bit : (stationAfter lateGotIp).connectedBit = true := by
    decide +kernel
  have down : (stationAfter lateGotIp).glStaConnected = false := by
    decide +kernel
  have report :
      callsOf (lateGotIp.take 4) (.ip (.staGotIp .sta)) =
        [.sendWifiConnReport .sta .success
          (some { staBssid := Buffer.zero 6, staSsid := Buffer.zero 32,
                  staSsidLen := 0 })] := by
    decide +kernel
  refine ⟨bit, down, report, ?_, ?_⟩
  · intro everywhere
    have connected := everywhere.last bit
    rw [down] at connected
    cases connected
  · intro everywhere
    have reported :
        .sendWifiConnReport .sta .success
            (some { staBssid := Buffer.zero 6, staSsid := Buffer.zero 32,
                    staSsidLen := 0 }) ∈
          callsOf (lateGotIp.take 4) (.ip (.staGotIp .sta)) := by
      rw [report]
      exact List.mem_cons_self
    obtain ⟨linked, _, up, _, _⟩ :=
      everywhere (lateGotIp.take 4) _ [] rfl _ _ _ rfl reported
    exact not_linkUp_concat_disconnected (lateGotIp.take 3) linked up

/-! ## Requests to leave the access point -/

/-- The events that ask for a connection. -/
def StationEvent.AsksToConnect : StationEvent → Prop
  | .wifi .staStart => True
  | .blufi .reqConnectToAp => True
  | _ => False

/-- Which events call `esp_wifi_connect`. -/
theorem wifiConnect_mem_callsOf_iff {history : List StationEvent}
    {event : StationEvent} :
    .wifiConnect ∈ callsOf history event ↔
      event.AsksToConnect ∨ event = .wifi .staDisconnected := by
  rw [callsOf]
  cases event with
  | wifi event =>
      cases event with
      | scanDone scan =>
          simp only [Station.handle, wifiEventHandler, scanDoneCalls]
          split_ifs <;> simp [StationEvent.AsksToConnect]
      | apStart mode =>
          simp only [Station.handle, wifiEventHandler]
          split_ifs <;> simp [StationEvent.AsksToConnect]
      | _ =>
          simp [Station.handle, wifiEventHandler,
            StationEvent.AsksToConnect]
  | ip event =>
      cases event with
      | staGotIp mode =>
          simp only [Station.handle, ipEventHandler]
          split_ifs <;> simp [StationEvent.AsksToConnect]
      | other =>
          simp [Station.handle, ipEventHandler, StationEvent.AsksToConnect]
  | blufi event =>
      cases event with
      | getWifiStatus mode =>
          simp only [Station.handle, Station.exampleEventCallback]
          split_ifs <;> simp [StationEvent.AsksToConnect]
      | _ =>
          simp [Station.handle, Station.exampleEventCallback,
            StationEvent.AsksToConnect]

/-- No event of `window`, which follows a request to leave the access point,
calls `esp_wifi_connect`. -/
def StaysAway (before window : List StationEvent) : Prop :=
  AtEveryStep
    (fun front event =>
      .wifiConnect ∉
        callsOf (before ++ .blufi .reqDisconnectFromAp :: front) event)
    window

/-- Until the next event that asks for a connection, a request to leave the
access point is kept exactly when no loss of the link is delivered. -/
theorem staysAway_iff (before window : List StationEvent)
    (noRequest : ∀ event, event ∈ window → ¬ event.AsksToConnect) :
    StaysAway before window ↔ .wifi .staDisconnected ∉ window := by
  constructor
  · intro stays member
    obtain ⟨front, behind, shape⟩ := List.append_of_mem member
    apply stays front _ behind shape
    exact wifiConnect_mem_callsOf_iff.mpr (Or.inr rfl)
  · intro noLoss front event behind shape connects
    have member : event ∈ window := by
      rw [shape]
      simp
    rcases wifiConnect_mem_callsOf_iff.mp connects with asks | isLoss
    · exact noRequest event member asks
    · subst isLoss
      exact noLoss member

/-- The station is associated and has an address. -/
def associated : List StationEvent :=
  [.wifi .staStart, .wifi (.staConnected accessPoint), .ip (.staGotIp .sta)]

theorem disconnected_asks_nothing :
    ∀ event, event ∈ [StationEvent.wifi .staDisconnected] →
      ¬ event.AsksToConnect := by
  intro event member
  rw [List.mem_singleton.mp member]
  exact fun asks => asks

/-- The loss of the link that the request leads to makes the handler connect
again. -/
theorem requested_disconnect_reconnects :
    callsOf associated (.blufi .reqDisconnectFromAp) = [.wifiDisconnect] ∧
      callsOf (associated ++ [.blufi .reqDisconnectFromAp])
          (.wifi .staDisconnected) = [.wifiConnect] ∧
      ¬ StaysAway associated [.wifi .staDisconnected] := by
  refine ⟨rfl, rfl, ?_⟩
  intro stays
  exact stays [] _ [] rfl
    (wifiConnect_mem_callsOf_iff.mpr (Or.inr rfl))

theorem staysAway_iff_associated :
    StaysAway associated [.wifi .staDisconnected] ↔
      .wifi .staDisconnected ∉ [StationEvent.wifi .staDisconnected] :=
  staysAway_iff associated [.wifi .staDisconnected]
    disconnected_asks_nothing

end Esp32Source.Blufi
