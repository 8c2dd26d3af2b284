import Esp32Source.UdpServer.Task

/-!
# Runs of the receive loop

In every state of a run in which the task still receives, the name field of
`wifi_config2` holds the names of all datagrams laid one over the other.  A
configuration call therefore passes the name of its own datagram exactly when
no earlier datagram had a longer one.
-/

namespace Esp32Source.UdpServer

open Memory Machine Wifi

/-- `fprintf` of a text without conversions is no fault, so neither is the
call. -/
theorem wearLevellingStorage_returns (storage : Storage)
    (fileName : List UInt8) {data written : List UInt8}
    (formatted : formatOutput (cText data) = .ok written)
    (answers : StorageAnswers) :
    ∃ result, wearLevellingStorage storage fileName data answers =
      .ok result := by
  rw [wearLevellingStorage]
  split
  · by_cases opens : answers.fopenSucceeds
    · rw [if_pos opens, formatted]
      exact ⟨_, rfl⟩
    · rw [if_neg opens]
      exact ⟨_, rfl⟩
  · exact ⟨_, rfl⟩

@[simp]
theorem Task.reopenSocket_wifiConfig2 (task : Task) (reopens : Bool) :
    (task.reopenSocket reopens).wifiConfig2 = task.wifiConfig2 := by
  cases reopens <;> rfl

@[simp]
theorem Task.reopenSocket_phase (task : Task) (reopens : Bool) :
    (task.reopenSocket reopens).phase =
      if reopens then task.phase else .deleted := by
  cases reopens <;> rfl

/-- Once the credentials are copied, handling a datagram goes through: it is
echoed, and the task either reconfigures the driver or opens a new socket. -/
theorem receive_of_copied {task : Task}
    {received terminated tokens : Buffer 128} {bytes : List UInt8}
    {config : StaConfig} (answers : TaskAnswers)
    (first : task.rxBuffer.store 0 bytes = .ok received)
    (second : received.store bytes.length [0] = .ok terminated)
    (copied : copyCredentials terminated task.wifiConfig2 =
      .ok (tokens, config)) :
    ∃ next calls,
      task.receive (.datagram bytes answers) = .ok (next, calls) ∧
        next.wifiConfig2 = config ∧
        next.phase =
          (if answers.sends then (reconfigure config answers).1
          else if answers.reopens then task.phase else .deleted) ∧
        ∃ echo, calls = .sendto echo ::
          if answers.sends then (reconfigure config answers).2 else [] := by
  have inside := (Buffer.store_eq_ok_iff.mp first).1
  have plain : formatOutput (cText (ascii "what is")) =
      .ok (ascii "what is") :=
    rfl
  obtain ⟨⟨storage, reply⟩, stored⟩ :=
    wearLevellingStorage_returns task.storage wifiCredential plain
      answers.storage
  have echoed := tokens.load_of_fits 0 bytes.length inside
  simp only [Task.receive, first, second, stored, copied, echoed, bind,
    Except.bind]
  by_cases sends : answers.sends
  · simp only [if_pos sends]
    exact ⟨_, _, rfl, rfl, rfl, _, rfl⟩
  · simp only [if_neg sends]
    exact ⟨_, _, rfl, Task.reopenSocket_wifiConfig2 _ _,
      Task.reopenSocket_phase _ _, _, rfl⟩

/-- What handling a datagram of credentials does to the task. -/
structure Handles (task : Task) (bytes : List UInt8)
    (answers : TaskAnswers) (next : Task) (calls : List TaskCall) :
    Prop where
  name : next.wifiConfig2.lead.window ssidOffset 32 =
    overlay (datagramSsid bytes)
      (task.wifiConfig2.lead.window ssidOffset 32)
  password : passwordText next.wifiConfig2.lead = datagramPasswd bytes
  phase : next.phase =
    if answers.sends then (reconfigure next.wifiConfig2 answers).1
    else if answers.reopens then task.phase else .deleted
  calls : ∃ echo, calls = .sendto echo ::
    if answers.sends then (reconfigure next.wifiConfig2 answers).2 else []

theorem receive_datagram (task : Task) {bytes : List UInt8}
    (credentials : Credentials bytes) (answers : TaskAnswers) :
    ∃ next calls,
      task.receive (.datagram bytes answers) = .ok (next, calls) ∧
        Handles task bytes answers next calls := by
  have short := credentials.length_le
  obtain ⟨received, terminated, first, second, cells⟩ :=
    task.rxBuffer.terminate_of_fits bytes (by omega)
  obtain ⟨stop, behind, ends, cut⟩ := credentials.terminated
    (task.rxBuffer.cells.drop (bytes.length + 1))
  obtain ⟨tokens, lead, copied, name, password⟩ :=
    copyCredentials_copies task.wifiConfig2 (cells.trans cut)
      (List.ne_nil_of_length_pos credentials.ssidNonempty)
      (List.ne_nil_of_length_pos credentials.passwdNonempty)
      (fun byte member => ⟨credentials.ssidFree byte member,
        by simpa using ne_separator_of_mem_datagramSsid member⟩)
      (fun byte member => ⟨credentials.passwdFree byte member,
        by simpa using ne_separator_of_mem_datagramPasswd member⟩)
      ends credentials.ssidShort credentials.passwdShort
  obtain ⟨next, calls, handled, isConfig, phase, sent⟩ :=
    receive_of_copied answers first second copied
  refine ⟨next, calls, handled, ?_, ?_, ?_, ?_⟩
  · rw [isConfig]
    exact name
  · rw [isConfig]
    exact password
  · rw [isConfig]
    exact phase
  · rw [isConfig]
    exact sent

/-! ## Runs -/

/-- The task receives on after the event. -/
def TaskEvent.GoesOn : TaskEvent → Prop
  | .recvError reopens => reopens = true
  | .datagram _ answers => answers.sends = false ∧ answers.reopens = true

/-- The names of the datagrams of a history, the oldest first. -/
def ssids (history : List TaskEvent) : List (List UInt8) :=
  history.filterMap fun
    | .recvError _ => none
    | .datagram bytes _ => some (datagramSsid bytes)

/-- The task receives exactly while every event let it go on, and then the
name field holds all the names laid one over the other. -/
structure HoldsNames (history : List TaskEvent) (task : Task) : Prop where
  receiving : task.phase = .receiving ↔
    ∀ event, event ∈ history → event.GoesOn
  name : task.phase = .receiving →
    ZeroPadded (overlayAll [] (ssids history))
      (task.wifiConfig2.lead.window ssidOffset 32)

theorem ssids_concat_datagram (history : List TaskEvent)
    (bytes : List UInt8) (answers : TaskAnswers) :
    ssids (history ++ [.datagram bytes answers]) =
      ssids history ++ [datagramSsid bytes] := by
  simp [ssids]

theorem ssids_concat_recvError (history : List TaskEvent)
    (reopens : Bool) :
    ssids (history ++ [.recvError reopens]) = ssids history := by
  simp [ssids]

theorem goesOn_concat_iff {history : List TaskEvent} {event : TaskEvent} :
    (∀ earlier, earlier ∈ history ++ [event] → earlier.GoesOn) ↔
      (∀ earlier, earlier ∈ history → earlier.GoesOn) ∧
        event.GoesOn := by
  rw [List.forall_mem_append, List.forall_mem_singleton]

theorem reconfigure_phase_ne_receiving (config : StaConfig)
    (answers : TaskAnswers) :
    (reconfigure config answers).1 ≠ .receiving := by
  simp only [reconfigure]
  split <;> [skip; split <;> [skip; split]] <;> exact Phase.noConfusion

theorem Handles.receiving_iff {task next : Task} {bytes : List UInt8}
    {answers : TaskAnswers} {calls : List TaskCall}
    (handles : Handles task bytes answers next calls)
    (receives : task.phase = .receiving) :
    next.phase = .receiving ↔
      (TaskEvent.datagram bytes answers).GoesOn := by
  rw [handles.phase, TaskEvent.GoesOn]
  cases sends : answers.sends with
  | true =>
      simp [reconfigure_phase_ne_receiving]
  | false =>
      cases reopens : answers.reopens with
      | true => simp [receives]
      | false => simp

/-- Every event of credentials is handled and keeps the names. -/
theorem udpServerTask_holdsNames {history : List TaskEvent} {task : Task}
    (holds : HoldsNames history task) {event : TaskEvent}
    (wellFormed : event.WellFormed) :
    ∃ next calls,
      udpServerTask task event = .ok (next, calls) ∧
        HoldsNames (history ++ [event]) next := by
  by_cases receives : task.phase = .receiving
  · have wentOn := holds.receiving.mp receives
    rw [udpServerTask, if_pos receives]
    cases event with
    | recvError reopens =>
        refine ⟨_, _, rfl, ?_, ?_⟩
        · rw [goesOn_concat_iff, and_iff_right wentOn,
            Task.reopenSocket_phase, TaskEvent.GoesOn]
          cases reopens with
          | true => simp [receives]
          | false => simp
        · intro _
          rw [ssids_concat_recvError, Task.reopenSocket_wifiConfig2]
          exact holds.name receives
    | datagram bytes answers =>
        obtain ⟨next, calls, handled, handles⟩ :=
          receive_datagram task wellFormed answers
        refine ⟨next, calls, handled, ?_, ?_⟩
        · rw [goesOn_concat_iff, and_iff_right wentOn,
            handles.receiving_iff receives]
        · intro _
          rw [ssids_concat_datagram, overlayAll_concat, handles.name]
          apply (holds.name receives).overlay
          rw [task.wifiConfig2.lead.length_window (by decide)]
          exact wellFormed.ssidShort
  · rw [udpServerTask, if_neg receives]
    refine ⟨task, [], rfl, ?_, fun receivesNow => absurd receivesNow receives⟩
    rw [goesOn_concat_iff, ← holds.receiving]
    simp [receives]

theorem taskAfter_holdsNames (rxBuffer : Buffer 128) (storage : Storage)
    {history : List TaskEvent}
    (wellFormed : ∀ event, event ∈ history → event.WellFormed) :
    ∃ task, taskAfter rxBuffer storage history = .ok task ∧
      HoldsNames history task := by
  refine after_total HoldsNames TaskEvent.WellFormed ?_ ?_ wellFormed
  · exact ⟨by simp [Task.start], fun _ => rfl⟩
  · intro front event task holds allowed
    exact udpServerTask_holdsNames holds allowed

/-! ## Configuration calls -/

/-- Every configuration call that the event makes passes the name and the
password of the event's own datagram. -/
def PassesOwnCredentials (rxBuffer : Buffer 128) (storage : Storage)
    (history : List TaskEvent) (event : TaskEvent) : Prop :=
  ∀ task next calls config,
    taskAfter rxBuffer storage history = .ok task →
      udpServerTask task event = .ok (next, calls) →
        .wifiSetConfig config ∈ calls →
          ∃ bytes answers,
            event = .datagram bytes answers ∧
              ssidText config.lead = datagramSsid bytes ∧
              passwordText config.lead = datagramPasswd bytes

/-- The echo is sent and the driver is stopped and set to station mode. -/
def TaskAnswers.Configures (answers : TaskAnswers) : Prop :=
  answers.sends = true ∧ answers.stops = true ∧ answers.setsMode = true

/-- If the task comes to configure the driver for this datagram, no datagram
before it had a longer name. -/
def NoLongerSsidBefore (history : List TaskEvent) (event : TaskEvent) :
    Prop :=
  ∀ bytes answers, event = .datagram bytes answers →
    answers.Configures →
      (∀ earlier, earlier ∈ history → earlier.GoesOn) →
        ∀ ssid, ssid ∈ ssids history →
          ssid.length ≤ (datagramSsid bytes).length

theorem wifiSetConfig_mem_reconfigure_iff {config passed : StaConfig}
    {answers : TaskAnswers} :
    .wifiSetConfig passed ∈ (reconfigure config answers).2 ↔
      passed = config ∧ answers.stops = true ∧
        answers.setsMode = true := by
  simp only [reconfigure]
  cases answers.stops <;> cases answers.setsMode <;>
    cases answers.setsConfig <;> simp

theorem Handles.wifiSetConfig_mem_iff {task next : Task}
    {bytes : List UInt8} {answers : TaskAnswers} {calls : List TaskCall}
    (handles : Handles task bytes answers next calls)
    {passed : StaConfig} :
    .wifiSetConfig passed ∈ calls ↔
      passed = next.wifiConfig2 ∧ answers.Configures := by
  obtain ⟨echo, isCalls⟩ := handles.calls
  rw [isCalls, TaskAnswers.Configures]
  cases sends : answers.sends with
  | true => simp [wifiSetConfig_mem_reconfigure_iff]
  | false => simp

theorem nulFree_overlayAll_ssids {history : List TaskEvent}
    (wellFormed : ∀ event, event ∈ history → event.WellFormed) :
    NulFree (overlayAll [] (ssids history)) := by
  intro byte member
  obtain ⟨ssid, ssidMember, byteMember⟩ := mem_overlayAll member
  obtain ⟨event, eventMember, isSsid⟩ := List.mem_filterMap.mp ssidMember
  have allowed := wellFormed event eventMember
  cases event with
  | recvError reopens =>
      cases isSsid
  | datagram bytes answers =>
      cases isSsid
      exact allowed.ssidFree byte byteMember

/-- A datagram that is handled leaves its own name exactly when no earlier
one was longer. -/
theorem Handles.ssidText_eq_iff {history : List TaskEvent}
    {task next : Task} {bytes : List UInt8} {answers : TaskAnswers}
    {calls : List TaskCall}
    (handles : Handles task bytes answers next calls)
    (padded : ZeroPadded (overlayAll [] (ssids history))
      (task.wifiConfig2.lead.window ssidOffset 32))
    (credentials : Credentials bytes)
    (wellFormed : ∀ event, event ∈ history → event.WellFormed) :
    ssidText next.wifiConfig2.lead = datagramSsid bytes ↔
      ∀ ssid, ssid ∈ ssids history →
        ssid.length ≤ (datagramSsid bytes).length := by
  have paddedNext :
      ZeroPadded
        (overlayAll [] (ssids history ++ [datagramSsid bytes]))
        (next.wifiConfig2.lead.window ssidOffset 32) := by
    rw [overlayAll_concat, handles.name]
    apply padded.overlay
    rw [task.wifiConfig2.lead.length_window (by decide)]
    exact credentials.ssidShort
  have free :
      NulFree (overlayAll [] (ssids history ++ [datagramSsid bytes])) := by
    have lastFormed : (TaskEvent.datagram bytes answers).WellFormed :=
      credentials
    have allFree := nulFree_overlayAll_ssids
      (List.forall_mem_append.mpr
        ⟨wellFormed, List.forall_mem_singleton.mpr lastFormed⟩)
    rw [ssids_concat_datagram] at allFree
    exact allFree
  rw [ssidText, paddedNext.cText_eq free, overlayAll_concat_eq_last_iff]

theorem passesOwnCredentials_iff (rxBuffer : Buffer 128)
    (storage : Storage) {history : List TaskEvent} {event : TaskEvent}
    (wellFormed : ∀ earlier, earlier ∈ history → earlier.WellFormed)
    (allowed : event.WellFormed) :
    PassesOwnCredentials rxBuffer storage history event ↔
      NoLongerSsidBefore history event := by
  obtain ⟨task, reached, holds⟩ :=
    taskAfter_holdsNames rxBuffer storage wellFormed
  by_cases receives : task.phase = .receiving
  · have wentOn := holds.receiving.mp receives
    cases event with
    | recvError reopens =>
        refine iff_of_true ?_ ?_
        · intro first next calls config reachedFirst handled member
          cases reached.symm.trans reachedFirst
          rw [udpServerTask, if_pos receives, Task.receive] at handled
          cases handled
          cases member
        · intro bytes answers isDatagram
          cases isDatagram
    | datagram bytes answers =>
        obtain ⟨next, calls, handled, handles⟩ :=
          receive_datagram task allowed answers
        have handledBy :
            udpServerTask task (.datagram bytes answers) =
              .ok (next, calls) := by
          rw [udpServerTask, if_pos receives, handled]
        have nameIff :=
          handles.ssidText_eq_iff (holds.name receives) allowed wellFormed
        constructor
        · intro passes sameBytes sameAnswers isDatagram configures _
          cases isDatagram
          obtain ⟨_, _, isDatagram, name, _⟩ :=
            passes task next calls next.wifiConfig2 reached handledBy
              (handles.wifiSetConfig_mem_iff.mpr ⟨rfl, configures⟩)
          cases isDatagram
          exact nameIff.mp name
        · intro noLonger first second made config reachedFirst handledFirst
            member
          cases reached.symm.trans reachedFirst
          cases handledBy.symm.trans handledFirst
          obtain ⟨isConfig, configures⟩ :=
            handles.wifiSetConfig_mem_iff.mp member
          subst isConfig
          exact ⟨bytes, answers, rfl,
            nameIff.mpr (noLonger bytes answers rfl configures wentOn),
            handles.password⟩
  · refine iff_of_true ?_ ?_
    · intro first next calls config reachedFirst handled member
      cases reached.symm.trans reachedFirst
      rw [udpServerTask, if_neg receives] at handled
      cases handled
      cases member
    · intro bytes answers _ _ wentOn
      exact absurd (holds.receiving.mpr wentOn) receives

/-- Every configuration call of a run passes the credentials of its own
datagram exactly when no earlier datagram of the run had a longer name. -/
theorem wifiSetConfig_passes_own_credentials_iff (rxBuffer : Buffer 128)
    (storage : Storage) (history : List TaskEvent)
    (wellFormed : ∀ event, event ∈ history → event.WellFormed) :
    (∃ task, taskAfter rxBuffer storage history = .ok task) ∧
      (AtEveryStep (PassesOwnCredentials rxBuffer storage) history ↔
        AtEveryStep NoLongerSsidBefore history) := by
  obtain ⟨task, reached, _⟩ :=
    taskAfter_holdsNames rxBuffer storage wellFormed
  refine ⟨⟨task, reached⟩, atEveryStep_congr ?_⟩
  intro front event behind shape
  rw [shape, List.forall_mem_append, List.forall_mem_cons] at wellFormed
  exact passesOwnCredentials_iff rxBuffer storage wellFormed.1
    wellFormed.2.1

/-- Answers under which the echo is lost. -/
def lostEcho : TaskAnswers where
  storage := { mountSucceeds := true, fopenSucceeds := true }
  sends := false
  reopens := true
  stops := true
  setsMode := true
  setsConfig := true

def emptyStorage : Storage where
  mounted := false
  files _ := none

def longNameLost : TaskEvent :=
  .datagram (ascii "home-network;12345678") lostEcho

def shortNameSent : TaskEvent :=
  .datagram (ascii "cafe;87654321") { lostEcho with sends := true }

theorem longNameLost_wellFormed :
    ∀ event, event ∈ [longNameLost] → event.WellFormed := by
  intro event member
  rw [List.mem_singleton.mp member]
  exact ⟨by decide, by decide, by decide, by decide, by decide, by decide,
    by decide⟩

theorem shortNameSent_wellFormed : shortNameSent.WellFormed :=
  ⟨by decide, by decide, by decide, by decide, by decide, by decide,
    by decide⟩

/-- The name that a call passes to the driver. -/
def TaskCall.configuredSsid : TaskCall → Option (List UInt8)
  | .wifiSetConfig config => some (ssidText config.lead)
  | _ => none

theorem longThenShort_wellFormed :
    ∀ event, event ∈ [longNameLost, shortNameSent] → event.WellFormed := by
  intro event member
  rcases List.mem_cons.mp member with isFirst | inRest
  · exact longNameLost_wellFormed event (List.mem_singleton.mpr isFirst)
  · rw [List.mem_singleton.mp inRest]
    exact shortNameSent_wellFormed

/-- The driver is given the name `"cafe-network"` for the datagram
`"cafe;87654321"`. -/
theorem shortName_keeps_stale_tail :
    (∀ event, event ∈ [longNameLost, shortNameSent] → event.WellFormed) ∧
      (taskAfter (Buffer.zero 128) emptyStorage [longNameLost] >>=
          fun task => udpServerTask task shortNameSent).map
          (fun result => result.2.filterMap TaskCall.configuredSsid) =
        .ok [ascii "cafe-network"] ∧
      ¬ AtEveryStep
        (PassesOwnCredentials (Buffer.zero 128) emptyStorage)
        [longNameLost, shortNameSent] := by
  refine ⟨longThenShort_wellFormed, by decide +kernel, ?_⟩
  intro everywhere
  have passes := everywhere [longNameLost] shortNameSent [] rfl
  rw [passesOwnCredentials_iff _ _ longNameLost_wellFormed
    shortNameSent_wellFormed] at passes
  have wentOn : ∀ earlier, earlier ∈ [longNameLost] → earlier.GoesOn := by
    intro earlier member
    rw [List.mem_singleton.mp member]
    exact ⟨rfl, rfl⟩
  have noLonger := passes _ _ rfl ⟨rfl, rfl, rfl⟩ wentOn
    (ascii "home-network") (by decide)
  exact absurd noLonger (by decide)

theorem wifiSetConfig_passes_own_credentials_iff_longThenShort :
    (∃ task,
        taskAfter (Buffer.zero 128) emptyStorage
            [longNameLost, shortNameSent] = .ok task) ∧
      (AtEveryStep (PassesOwnCredentials (Buffer.zero 128) emptyStorage)
          [longNameLost, shortNameSent] ↔
        AtEveryStep NoLongerSsidBefore [longNameLost, shortNameSent]) :=
  wifiSetConfig_passes_own_credentials_iff (Buffer.zero 128) emptyStorage
    [longNameLost, shortNameSent] longThenShort_wellFormed

end Esp32Source.UdpServer
