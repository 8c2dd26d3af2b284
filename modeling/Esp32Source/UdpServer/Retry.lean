import Esp32Source.UdpServer.Task

/-!
# Connecting, retrying and giving up

`event_handler` counts disconnects and gives up after the fifth that no
address came between.  `wifi_init_sta` waits for one of the two bits that the
handler sets; when the connection has failed it erases the stored name and
restarts.

The bits are never cleared, so they are facts about the whole history: the
connected bit says that an address was ever assigned, and the fail bit that
the handler ever gave up.
-/

namespace Esp32Source.UdpServer

open Memory Machine Wifi

/-- The events that `event_handler` tells apart. -/
inductive StaEvent where
  | staStart
  | staDisconnected
  | gotIp
  | other
  deriving DecidableEq, Repr

/-- The bits of `s_wifi_event_group`. -/
structure EventBits where
  connected : Bool
  failed : Bool
  deriving DecidableEq, Repr

/-- The variables of `event_handler`. -/
structure Retry where
  sRetryNum : Nat
  bits : EventBits
  deriving DecidableEq, Repr

/-- `EXAMPLE_ESP_MAXIMUM_RETRY` -/
def maximumRetry : Nat := 5

inductive RetryCall where
  | connect
  | setConfig (config : StaConfig)
  | restart
  | deinit
  | stop
  | softap
  deriving DecidableEq, Repr

def eventHandler (retry : Retry) : StaEvent → Retry × List RetryCall
  | .staStart => (retry, [.connect])
  | .staDisconnected =>
      if retry.sRetryNum < maximumRetry then
        ({ retry with sRetryNum := retry.sRetryNum + 1 }, [.connect])
      else
        ({ retry with bits := { retry.bits with failed := true } }, [])
  | .gotIp =>
      ({ sRetryNum := 0, bits := { retry.bits with connected := true } }, [])
  | .other => (retry, [])

def Retry.start : Retry where
  sRetryNum := 0
  bits := { connected := false, failed := false }

def retryAfter (history : List StaEvent) : Retry :=
  final eventHandler Retry.start history

/-! ## `wifi_init_sta` -/

inductive InitPhase where
  | starting
  | waiting
  | connected
  | softap
  | aborted
  | restarted
  deriving DecidableEq, Repr

/-- The device while `wifi_init_sta` runs: the variables of the handler, the
global `wifi_config2`, and the configuration that the driver has stored. -/
structure InitSta where
  phase : InitPhase
  retry : Retry
  wifiConfig2 : StaConfig
  stored : StaConfig

/-- The results of the driver calls in front of the wait: of those up to
`esp_wifi_get_config`, and of `esp_wifi_stop`. -/
structure InitAnswers where
  starts : Bool
  stops : Bool

inductive InitStep where
  | event (event : StaEvent)
  | starts (answers : InitAnswers)
  | waitReturns (setsConfig : Bool)

/-- `wifi_init_sta` up to the wait.  A stored name that is empty starts the
access point instead. -/
def InitSta.begin (device : InitSta) (answers : InitAnswers) :
    InitSta × List RetryCall :=
  if ¬ answers.starts then ({ device with phase := .aborted }, [])
  else if ssidText device.stored.lead = [] then
    if answers.stops then
      ({ device with phase := .softap }, [.deinit, .stop, .softap])
    else ({ device with phase := .aborted }, [.deinit, .stop])
  else ({ device with phase := .waiting }, [])

/-- Erase the name in `wifi_config2`, set the configuration and restart. -/
def InitSta.giveUp (device : InitSta) (setsConfig : Bool) :
    InitSta × List RetryCall :=
  let wifiConfig2 :=
    { device.wifiConfig2 with
      lead := device.wifiConfig2.lead.storeFront [0] (by decide) }
  if setsConfig then
    ({ device with phase := .restarted, wifiConfig2, stored := wifiConfig2 },
      [.setConfig wifiConfig2, .restart])
  else
    ({ device with phase := .aborted, wifiConfig2 },
      [.setConfig wifiConfig2])

/-- The branches behind the wait.  The last one, for no bit at all, does the
same as the one for a failed connection. -/
def InitSta.afterWait (device : InitSta) (bits : EventBits)
    (setsConfig : Bool) : InitSta × List RetryCall :=
  if bits.connected then ({ device with phase := .connected }, [])
  else if bits.failed then device.giveUp setsConfig
  else device.giveUp setsConfig

/-- The phases in which the program no longer runs. -/
def InitPhase.ended : InitPhase → Bool
  | .aborted => true
  | .restarted => true
  | _ => false

/-- One step of the handler or of the task.  The wait returns only once a bit
is set, and yields the bits of that moment. -/
def InitSta.step (device : InitSta) : InitStep → InitSta × List RetryCall
  | .event event =>
      if device.phase.ended then (device, [])
      else
        let (retry, calls) := eventHandler device.retry event
        ({ device with retry }, calls)
  | .starts answers =>
      if device.phase = .starting then device.begin answers
      else (device, [])
  | .waitReturns setsConfig =>
      let bits := device.retry.bits
      if device.phase = .waiting ∧ (bits.connected ∨ bits.failed) then
        device.afterWait bits setsConfig
      else (device, [])

/-- The device at boot, with any configuration stored. -/
def InitSta.boot (stored : StaConfig) : InitSta where
  phase := .starting
  retry := Retry.start
  wifiConfig2 := StaConfig.zero
  stored

def initAfter (stored : StaConfig) (history : List InitStep) : InitSta :=
  final InitSta.step (InitSta.boot stored) history

/-- The events delivered to the handler. -/
def delivered (history : List InitStep) : List StaEvent :=
  history.filterMap fun
    | .event event => some event
    | _ => none

/-! ## What the history says -/

/-- The disconnects since the last address, or since boot. -/
def disconnectsInARow (history : List StaEvent) : Nat :=
  (history.reverse.takeWhile (· ≠ .gotIp)).count .staDisconnected

/-- Some disconnect came after at least five others with no address between
them. -/
def GaveUp (history : List StaEvent) : Prop :=
  ∃ before behind,
    history = before ++ .staDisconnected :: behind ∧
      5 ≤ disconnectsInARow before

theorem disconnectsInARow_concat_gotIp (history : List StaEvent) :
    disconnectsInARow (history ++ [.gotIp]) = 0 := by
  simp [disconnectsInARow]

theorem disconnectsInARow_concat_staDisconnected
    (history : List StaEvent) :
    disconnectsInARow (history ++ [.staDisconnected]) =
      disconnectsInARow history + 1 := by
  simp [disconnectsInARow]

theorem disconnectsInARow_concat_of_other {event : StaEvent}
    (noAddress : event ≠ .gotIp) (noDisconnect : event ≠ .staDisconnected)
    (history : List StaEvent) :
    disconnectsInARow (history ++ [event]) = disconnectsInARow history := by
  rw [disconnectsInARow, List.reverse_append, List.reverse_singleton,
    List.singleton_append,
    List.takeWhile_cons_of_pos (by simpa using noAddress),
    List.count_cons_of_ne noDisconnect, disconnectsInARow]

theorem gaveUp_concat_iff {history : List StaEvent} {event : StaEvent} :
    GaveUp (history ++ [event]) ↔
      GaveUp history ∨
        event = .staDisconnected ∧ 5 ≤ disconnectsInARow history := by
  constructor
  · intro gaveUp
    obtain ⟨before, behind, shape, five⟩ := gaveUp
    rcases concat_eq_append_cons_iff.mp shape with isLast | isEarlier
    · obtain ⟨_, isBefore, isEvent⟩ := isLast
      exact Or.inr ⟨isEvent, isBefore ▸ five⟩
    · obtain ⟨rest, _, shapeEarlier⟩ := isEarlier
      exact Or.inl ⟨before, rest, shapeEarlier, five⟩
  · intro either
    rcases either with earlier | now
    · obtain ⟨before, behind, shape, five⟩ := earlier
      refine ⟨before, behind ++ [event], ?_, five⟩
      rw [shape, List.append_assoc, List.cons_append]
    · exact ⟨history, [], by rw [now.1], now.2⟩

/-! ## The handler follows the history -/

/-- The variables of the handler, as facts about the history. -/
structure Follows (history : List StaEvent) (retry : Retry) : Prop where
  count : retry.sRetryNum = min 5 (disconnectsInARow history)
  connected : retry.bits.connected = true ↔ .gotIp ∈ history
  failed : retry.bits.failed = true ↔ GaveUp history

theorem follows_start : Follows [] Retry.start where
  count := rfl
  connected := by simp [Retry.start]
  failed := by
    refine iff_of_false Bool.false_ne_true ?_
    rintro ⟨before, behind, shape, _⟩
    simp at shape

/-- An event that is neither a disconnect nor an address changes nothing. -/
theorem Follows.other {history : List StaEvent} {retry : Retry}
    (follows : Follows history retry) {event : StaEvent}
    (noAddress : event ≠ .gotIp) (noDisconnect : event ≠ .staDisconnected) :
    Follows (history ++ [event]) retry where
  count := by
    rw [disconnectsInARow_concat_of_other noAddress noDisconnect]
    exact follows.count
  connected := by
    rw [follows.connected, List.mem_append, List.mem_singleton]
    simp [Ne.symm noAddress]
  failed := by
    rw [follows.failed, gaveUp_concat_iff]
    simp [noDisconnect]

theorem eventHandler_follows {history : List StaEvent} {retry : Retry}
    (follows : Follows history retry) (event : StaEvent) :
    Follows (history ++ [event]) (eventHandler retry event).1 := by
  have count := follows.count
  cases event with
  | staStart =>
      exact follows.other StaEvent.noConfusion StaEvent.noConfusion
  | other =>
      exact follows.other StaEvent.noConfusion StaEvent.noConfusion
  | gotIp =>
      refine ⟨?_, ?_, ?_⟩
      · rw [disconnectsInARow_concat_gotIp]
        rfl
      · exact iff_of_true rfl (by simp)
      · rw [gaveUp_concat_iff, ← follows.failed]
        simp [eventHandler]
  | staDisconnected =>
      rw [eventHandler, maximumRetry]
      by_cases retries : retry.sRetryNum < 5
      · rw [if_pos retries]
        refine ⟨?_, ?_, ?_⟩
        · rw [disconnectsInARow_concat_staDisconnected]
          dsimp only
          omega
        · rw [follows.connected]
          simp
        · have fewer : ¬ 5 ≤ disconnectsInARow history := by omega
          rw [gaveUp_concat_iff, ← follows.failed]
          simp [fewer]
      · rw [if_neg retries]
        refine ⟨?_, ?_, ?_⟩
        · rw [disconnectsInARow_concat_staDisconnected]
          dsimp only
          omega
        · rw [follows.connected]
          simp
        · have five : 5 ≤ disconnectsInARow history := by omega
          rw [gaveUp_concat_iff]
          simp [five]

theorem retryAfter_follows (history : List StaEvent) :
    Follows history (retryAfter history) :=
  final_induction follows_start
    (fun _ _ event follows => eventHandler_follows follows event) history

/-- A disconnect is answered with a new attempt for the first five in a
row. -/
theorem eventHandler_staDisconnected_iff {history : List StaEvent}
    {retry : Retry} (follows : Follows history retry) :
    .connect ∈ (eventHandler retry .staDisconnected).2 ↔
      disconnectsInARow history < 5 := by
  have count := follows.count
  rw [eventHandler, maximumRetry]
  by_cases retries : retry.sRetryNum < 5
  · rw [if_pos retries]
    refine iff_of_true (by simp) ?_
    omega
  · rw [if_neg retries]
    refine iff_of_false (by simp) ?_
    omega

/-! ## The task follows the handler -/

theorem delivered_concat (history : List InitStep) (step : InitStep) :
    delivered (history ++ [step]) =
      delivered history ++ delivered [step] := by
  rw [delivered, List.filterMap_append]
  rfl

@[simp]
theorem InitSta.begin_retry (device : InitSta) (answers : InitAnswers) :
    (device.begin answers).1.retry = device.retry := by
  rw [InitSta.begin]
  split
  · rfl
  · split
    · split <;> rfl
    · rfl

@[simp]
theorem InitSta.afterWait_retry (device : InitSta) (bits : EventBits)
    (setsConfig : Bool) :
    (device.afterWait bits setsConfig).1.retry = device.retry := by
  rw [InitSta.afterWait]
  cases bits.connected <;> cases bits.failed <;> cases setsConfig <;> rfl

/-- While the program runs, the handler has seen every event of the
history. -/
theorem initAfter_retry (stored : StaConfig) (history : List InitStep) :
    (initAfter stored history).phase.ended = false →
      (initAfter stored history).retry = retryAfter (delivered history) := by
  induction history using List.reverseRecOn with
  | nil =>
      intro _
      rfl
  | append_singleton history step inductionHypothesis =>
      rw [initAfter, final_concat, ← initAfter, delivered_concat]
      have sameEvents : delivered [step] = [] →
          retryAfter (delivered history ++ delivered [step]) =
            retryAfter (delivered history) := by
        intro none
        rw [none, List.append_nil]
      cases step with
      | event event =>
          rw [InitSta.step]
          by_cases ended : (initAfter stored history).phase.ended = true
          · rw [if_pos ended]
            intro running
            rw [ended] at running
            cases running
          · rw [if_neg ended]
            intro _
            have reached :=
              inductionHypothesis (Bool.eq_false_iff.mpr ended)
            change (eventHandler _ event).1 = _
            rw [reached]
            exact (final_concat (delivered history) event).symm
      | starts answers =>
          rw [sameEvents rfl, InitSta.step]
          by_cases starting : (initAfter stored history).phase = .starting
          · rw [if_pos starting, InitSta.begin_retry]
            intro _
            apply inductionHypothesis
            rw [starting]
            rfl
          · rw [if_neg starting]
            exact inductionHypothesis
      | waitReturns setsConfig =>
          rw [sameEvents rfl, InitSta.step]
          split
          · rename_i waits
            rw [InitSta.afterWait_retry]
            intro _
            apply inductionHypothesis
            rw [waits.1]
            rfl
          · exact inductionHypothesis

/-! ## Erasing the name -/

/-- The step sets a configuration or restarts. -/
def ErasesOrRestarts (device : InitSta) (step : InitStep) : Prop :=
  (∃ config, .setConfig config ∈ (device.step step).2) ∨
    .restart ∈ (device.step step).2

/-- If the step erases the name or restarts, then it is the return of the
wait, with the fail bit set and without any address so far. -/
def ErasesOnlyAfterFailure (stored : StaConfig) (front : List InitStep)
    (step : InitStep) : Prop :=
  ErasesOrRestarts (initAfter stored front) step →
    (∃ setsConfig, step = .waitReturns setsConfig) ∧
      (initAfter stored front).retry.bits.failed = true ∧
      .gotIp ∉ delivered front

theorem eventHandler_calls (retry : Retry) (event : StaEvent) :
    ∀ call, call ∈ (eventHandler retry event).2 → call = .connect := by
  intro call member
  cases event with
  | staStart => simpa [eventHandler] using member
  | gotIp => simp [eventHandler] at member
  | other => simp [eventHandler] at member
  | staDisconnected =>
      rw [eventHandler] at member
      split at member
      · simpa using member
      · simp at member

theorem InitSta.begin_calls (device : InitSta) (answers : InitAnswers) :
    ∀ call, call ∈ (device.begin answers).2 →
      call = .deinit ∨ call = .stop ∨ call = .softap := by
  intro call member
  rw [InitSta.begin] at member
  split at member
  · simp at member
  · split at member
    · split at member
      · simpa using member
      · have fewer : call = .deinit ∨ call = .stop := by
          simpa using member
        exact fewer.imp_right Or.inl
    · simp at member

theorem erasesOnlyAfterFailure (stored : StaConfig)
    (front : List InitStep) (step : InitStep) :
    ErasesOnlyAfterFailure stored front step := by
  intro erases
  have notOther : ∀ call : RetryCall,
      (∃ config, call = .setConfig config) ∨ call = .restart →
        call ≠ .connect ∧ call ≠ .deinit ∧ call ≠ .stop ∧
          call ≠ .softap := by
    intro call either
    rcases either with isConfig | isRestart
    · obtain ⟨config, rfl⟩ := isConfig
      simp
    · rw [isRestart]
      simp
  have made : ∃ call, call ∈ ((initAfter stored front).step step).2 ∧
      ((∃ config, call = .setConfig config) ∨ call = .restart) := by
    rcases erases with sets | restarts
    · obtain ⟨config, member⟩ := sets
      exact ⟨_, member, Or.inl ⟨config, rfl⟩⟩
    · exact ⟨_, restarts, Or.inr rfl⟩
  obtain ⟨call, member, isErasing⟩ := made
  have distinct := notOther call isErasing
  cases step with
  | event event =>
      rw [InitSta.step] at member
      split at member
      · simp at member
      · exact absurd (eventHandler_calls _ event call member) distinct.1
  | starts answers =>
      rw [InitSta.step] at member
      split at member
      · rcases InitSta.begin_calls _ answers call member with
          isDeinit | isStop | isSoftap
        · exact absurd isDeinit distinct.2.1
        · exact absurd isStop distinct.2.2.1
        · exact absurd isSoftap distinct.2.2.2
      · simp at member
  | waitReturns setsConfig =>
      rw [InitSta.step] at member
      split at member
      · rename_i waits
        have running :
            (initAfter stored front).phase.ended = false := by
          rw [waits.1]
          rfl
        have follows := retryAfter_follows (delivered front)
        rw [← initAfter_retry stored front running] at follows
        rw [InitSta.afterWait] at member
        split at member
        · simp at member
        · rename_i notConnected
          refine ⟨⟨setsConfig, rfl⟩,
            waits.2.resolve_left notConnected, ?_⟩
          exact mt follows.connected.mpr notConnected
      · simp at member

/-- For every sequence of events: the counter is the number of disconnects in
a row, at most five; the first five of them are answered with a new attempt;
the fail bit says that there was a sixth.  The name is erased only when that
bit is set and no address was ever assigned. -/
theorem eventHandler_retries_and_gives_up :
    (∀ history,
        (retryAfter history).sRetryNum =
          min 5 (disconnectsInARow history)) ∧
      (∀ history,
        .connect ∈ (eventHandler (retryAfter history) .staDisconnected).2 ↔
          disconnectsInARow history < 5) ∧
      (∀ history,
        (retryAfter history).bits.failed = true ↔ GaveUp history) ∧
      ∀ stored history,
        AtEveryStep (ErasesOnlyAfterFailure stored) history := by
  refine ⟨?_, ?_, ?_, ?_⟩
  · intro history
    exact (retryAfter_follows history).count
  · intro history
    exact eventHandler_staDisconnected_iff (retryAfter_follows history)
  · intro history
    exact (retryAfter_follows history).failed
  · intro stored history front step _ _
    exact erasesOnlyAfterFailure stored front step

end Esp32Source.UdpServer
