import Esp32Source.Blufi.Station
import Esp32Source.Machine.Refinement
import Esp32Source.Memory.HeapArray

/-!
# The list of access points

In the case of `WIFI_EVENT_SCAN_DONE`, `wifi_event_handler` takes the records
of a scan into one block of the heap, copies the two members of each that the
phone is sent to another, and frees both.  `Station` has the outcome of this
case only.  Here it is the code on a heap whose blocks hold anything when they
are allocated, and it does what `Station` does, through every run, and leaves
the heap as it found it.

`esp_wifi_scan_get_ap_records` succeeds; it may return fewer records than
`esp_wifi_scan_get_ap_num` has counted.
-/

namespace Esp32Source.Blufi

open Memory Machine

/-! ## The handler -/

/-- What the environment decides about one scan: the number of access points,
the answers of `malloc` and what the blocks hold, and the records. -/
structure ScanAnswers where
  apNum : Nat
  apList : Option Nat
  apListMemory : List ApRecord
  length_apListMemory : apListMemory.length = apNum
  records : List ApRecord
  length_records_le : records.length ≤ apNum
  blufiApList : Option Nat
  blufiApListMemory : List ApRecord
  length_blufiApListMemory : blufiApListMemory.length = records.length

/-- The calls between the copy loop and the two calls of `free`. -/
def reportList (bleIsConnected : Bool) (heap : Heap (List ApRecord))
    (blufiApList apCount : Nat) : Except Fault (List Call) :=
  if bleIsConnected then do
    let list ← heap.loadFront blufiApList apCount
    return [.sendWifiList list, .wifiScanStop]
  else .ok [.wifiScanStop]

/-- The case behind the two allocations. -/
def sendList (bleIsConnected : Bool) (heap : Heap (List ApRecord))
    (apList blufiApList apCount : Nat) :
    Except Fault (Heap (List ApRecord) × List Call) := do
  let heap ← heap.copyArray apList blufiApList apCount
  let calls ← reportList bleIsConnected heap blufiApList apCount
  let heap ← heap.free apList
  let heap ← heap.free blufiApList
  return (heap, calls)

/-- The case of `WIFI_EVENT_SCAN_DONE`. -/
def scanDone (bleIsConnected : Bool) (heap : Heap (List ApRecord))
    (answers : ScanAnswers) :
    Except Fault (Heap (List ApRecord) × List Call) :=
  if answers.apNum = 0 then .ok (heap, [])
  else
    let (heap, apList) := heap.malloc answers.apList answers.apListMemory
    if apList = 0 then .ok (heap, [])
    else do
      let heap ← heap.storeFront apList answers.records
      let apCount := answers.records.length
      let (heap, blufiApList) :=
        heap.malloc answers.blufiApList answers.blufiApListMemory
      if blufiApList = 0 then do
        let heap ← heap.free apList
        return (heap, [])
      else sendList bleIsConnected heap apList blufiApList apCount

/-- The station with its heap. -/
structure HeapStation where
  station : Station
  heap : Heap (List ApRecord)

def StationEvent.isScanDone : StationEvent → Bool
  | .wifi (.scanDone _) => true
  | _ => false

inductive HeapStationEvent where
  | scanDone (answers : ScanAnswers)
  | other (event : StationEvent) (isOther : event.isScanDone = false)

def HeapStation.handle (program : HeapStation) :
    HeapStationEvent → Except Fault (HeapStation × List Call)
  | .scanDone answers => do
      let (heap, calls) ←
        Blufi.scanDone program.station.bleIsConnected program.heap answers
      return ({ program with heap }, calls)
  | .other event _ =>
      let (station, calls) := program.station.handle event
      .ok ({ program with station }, calls)

def heapStationAfter (program : HeapStation)
    (history : List HeapStationEvent) : Except Fault HeapStation :=
  after HeapStation.handle program history

/-! ## What `Station` is told of a scan -/

/-- The allocation succeeds. -/
def allocates (heap : Heap (List ApRecord)) (answer : Option Nat)
    (memory : List ApRecord) : Bool :=
  decide ((heap.malloc answer memory).2 ≠ 0)

def ScanAnswers.scan (heap : Heap (List ApRecord))
    (answers : ScanAnswers) : ScanDone where
  records := answers.records
  apListAllocated := allocates heap answers.apList answers.apListMemory
  blufiApListAllocated :=
    allocates (heap.malloc answers.apList answers.apListMemory).1
      answers.blufiApList answers.blufiApListMemory

def HeapStationEvent.told (heap : Heap (List ApRecord)) :
    HeapStationEvent → StationEvent
  | .scanDone answers => .wifi (.scanDone (answers.scan heap))
  | .other event _ => event

/-- Where access points were counted, a record is returned. -/
def HeapStationEvent.WellFormed : HeapStationEvent → Prop
  | .scanDone answers => answers.records = [] → answers.apNum = 0
  | .other _ _ => True

/-! ## One scan -/

/-- Whether an allocation succeeds depends on the addresses in use only. -/
theorem allocates_congr {heap other : Heap (List ApRecord)}
    (same : ∀ address,
      (heap.block address).isNone = (other.block address).isNone)
    (answer : Option Nat) (memory : List ApRecord) :
    allocates heap answer memory = allocates other answer memory := by
  cases answer with
  | none =>
      rfl
  | some address =>
      rw [allocates, allocates, Heap.malloc, Heap.malloc, same address]
      split <;> rfl

theorem isNone_set_of_live {heap : Heap (List ApRecord)} {address : Nat}
    (block other : List ApRecord) (position : Nat) :
    ((heap.set address (some block)).block position).isNone =
      ((heap.set address (some other)).block position).isNone := by
  by_cases here : position = address
  · rw [here, Heap.set_self, Heap.set_self]
    rfl
  · rw [Heap.set_of_ne heap here, Heap.set_of_ne heap here]

/-- The list is copied, reported and freed. -/
theorem sendList_reports (bleIsConnected : Bool)
    {heap : Heap (List ApRecord)} {apList blufiApList : Nat}
    {first second records : List ApRecord}
    (apListNotNull : apList ≠ 0) (blufiApListNotNull : blufiApList ≠ 0)
    (apart : apList ≠ blufiApList) (apListDead : heap.block apList = none)
    (blufiApListDead : heap.block blufiApList = none)
    (isFirst : first.take records.length = records)
    (firstLength : records.length ≤ first.length)
    (secondLength : second.length = records.length) :
    sendList bleIsConnected
        ((heap.set apList (some first)).set blufiApList (some second))
        apList blufiApList records.length =
      .ok (heap,
        if bleIsConnected then [.sendWifiList records, .wifiScanStop]
        else [.wifiScanStop]) := by
  have sourceLive (block : List ApRecord) :
      ((heap.set apList (some first)).set blufiApList
        (some block)).block apList = some first := by
    rw [Heap.set_of_ne _ apart, Heap.set_self]
  have copies := Heap.copyArray_copies apListNotNull blufiApListNotNull
    apart (sourceLive second) (Heap.set_self _ blufiApList _) firstLength
    (Nat.le_of_eq secondLength.symm)
  have isWhole : first.take records.length ++
      second.drop records.length = records := by
    rw [isFirst, List.drop_of_length_le (Nat.le_of_eq secondLength),
      List.append_nil]
  rw [isWhole, Heap.set_set] at copies
  have reports : reportList bleIsConnected
      ((heap.set apList (some first)).set blufiApList (some records))
      blufiApList records.length =
        .ok (if bleIsConnected then [.sendWifiList records, .wifiScanStop]
          else [.wifiScanStop]) := by
    rw [reportList, Heap.loadFront_of_live blufiApListNotNull
      (Heap.set_self _ blufiApList _) (Nat.le_refl _), List.take_length]
    cases bleIsConnected <;> rfl
  have secondLive :
      (((heap.set apList (some first)).set blufiApList
        (some records)).set apList none).block blufiApList =
          some records := by
    rw [Heap.set_of_ne _ (Ne.symm apart), Heap.set_self]
  rw [sendList, copies]
  dsimp only [bind, Except.bind]
  rw [reports]
  dsimp only
  rw [Heap.free_eq_set apListNotNull (sourceLive records)]
  dsimp only
  rw [Heap.free_eq_set blufiApListNotNull secondLive,
    Heap.set_set_none_of_dead apListDead blufiApListDead]
  rfl

/-- For every outcome of the two allocations, the handler calls what `Station`
does and leaves no block. -/
theorem scanDone_eq (station : Station) (heap : Heap (List ApRecord))
    (answers : ScanAnswers)
    (returns : answers.records = [] → answers.apNum = 0) :
    scanDone station.bleIsConnected heap answers =
      .ok (heap, scanDoneCalls station (answers.scan heap)) := by
  have fits := answers.length_records_le
  have isEmpty : answers.records.length = 0 ↔ answers.apNum = 0 := by
    refine ⟨fun isNil => returns (List.length_eq_zero_iff.mp isNil), ?_⟩
    intro noneCounted
    omega
  rw [scanDone, scanDoneCalls, ScanAnswers.scan, allocates, allocates]
  dsimp only
  by_cases noneCounted : answers.apNum = 0
  · rw [if_pos noneCounted, if_pos (isEmpty.mpr noneCounted)]
  · rw [if_neg noneCounted, if_neg (noneCounted ∘ isEmpty.mp)]
    rcases heap.malloc_cases answers.apList answers.apListMemory with
      failed | ⟨apList, apListNotNull, _, apListDead, allocated⟩
    · rw [failed]
      rfl
    · have malloced : heap.malloc answers.apList answers.apListMemory =
          (heap.set apList (some answers.apListMemory), apList) :=
        allocated
      have room : answers.records.length ≤ answers.apListMemory.length := by
        rw [answers.length_apListMemory]
        exact fits
      have stored := Heap.storeFront_of_live apListNotNull
        (Heap.set_self heap apList (some answers.apListMemory)) room
      rw [Heap.set_set] at stored
      obtain ⟨first, isFirst, front, covers⟩ : ∃ first,
          answers.records ++
              answers.apListMemory.drop answers.records.length = first ∧
            first.take answers.records.length = answers.records ∧
            answers.records.length ≤ first.length :=
        ⟨_, rfl, List.take_left' rfl, by simp⟩
      rw [isFirst] at stored
      have sameAddress : allocates
          (heap.set apList (some answers.apListMemory)) answers.blufiApList
            answers.blufiApListMemory = _ :=
        allocates_congr (isNone_set_of_live answers.apListMemory first)
          answers.blufiApList answers.blufiApListMemory
      rw [allocates, allocates] at sameAddress
      have isAllocated : ¬ ¬ decide (apList ≠ 0) = true := by
        simpa using apListNotNull
      rw [malloced]
      dsimp only
      rw [sameAddress, if_neg isAllocated, if_neg apListNotNull, stored]
      dsimp only [bind, Except.bind]
      rcases (heap.set apList (some first)).malloc_cases
          answers.blufiApList answers.blufiApListMemory with
        failed | ⟨blufiApList, blufiApListNotNull, _, blufiApListDead,
          allocated⟩
      · rw [failed]
        dsimp only
        rw [if_pos rfl,
          Heap.free_eq_set apListNotNull (Heap.set_self heap apList _),
          Heap.set_none_of_dead apListDead]
        rfl
      · have apart : apList ≠ blufiApList := by
          intro same
          rw [← same, Heap.set_self] at blufiApListDead
          cases blufiApListDead
        rw [Heap.set_of_ne heap (Ne.symm apart)] at blufiApListDead
        have reports := sendList_reports station.bleIsConnected
          apListNotNull blufiApListNotNull apart apListDead blufiApListDead
          front covers answers.length_blufiApListMemory
        rw [allocated]
        dsimp only
        rw [if_neg blufiApListNotNull,
          if_neg (by simpa using blufiApListNotNull)]
        exact reports

/-! ## Runs -/

/-- The station of the program is that of the machine, and the heap is as it
was at the start. -/
structure RefinesStation (heap : Heap (List ApRecord))
    (program : HeapStation) (station : Station) : Prop where
  station : program.station = station
  heap : program.heap = heap

/-- `Station`, told of each scan what came of it. -/
def toldStation (heap : Heap (List ApRecord)) (station : Station)
    (event : HeapStationEvent) : Station × List Call :=
  station.handle (event.told heap)

theorem RefinesStation.simulates {heap : Heap (List ApRecord)}
    {program : HeapStation} {station : Station}
    (refines : RefinesStation heap program station)
    {event : HeapStationEvent} (wellFormed : event.WellFormed) :
    SimulatesStep HeapStation.handle (toldStation heap) id
      (RefinesStation heap) program station event := by
  obtain ⟨ownStation, ownHeap⟩ := program
  obtain ⟨isStation, isHeap⟩ := refines
  cases isStation
  cases isHeap
  rw [SimulatesStep]
  cases event with
  | scanDone answers =>
      simp only [HeapStation.handle, scanDone_eq _ _ answers wellFormed,
        bind, Except.bind]
      exact ⟨_, _, rfl, rfl, rfl, rfl⟩
  | other event isOther =>
      exact ⟨_, _, rfl, rfl, rfl, rfl⟩

/-- Over every run, whatever the scans find and whichever allocations fail,
no list is read or written outside its block, used before it is filled or
after it is freed, and none is left behind; and every event makes the calls
that `Station` makes for it. -/
theorem scans_refine_station (program : HeapStation)
    (history : List HeapStationEvent)
    (wellFormed : ∀ event, event ∈ history → event.WellFormed) :
    (∃ reached, heapStationAfter program history = .ok reached ∧
        reached.heap = program.heap ∧
        reached.station = final Station.handle program.station
          (history.map (HeapStationEvent.told program.heap))) ∧
      AtEveryStep
        (ShowsOutput HeapStation.handle (toldStation program.heap) id
          program program.station) history := by
  have initial : RefinesStation program.heap program program.station :=
    ⟨rfl, rfl⟩
  refine ⟨?_, showsOutput_of_refines initial
    (fun _ _ _ related allowed => related.simulates allowed) wellFormed⟩
  obtain ⟨reached, run, related⟩ := after_refines initial
    (fun _ _ _ related allowed => related.simulates allowed) wellFormed
  refine ⟨reached, run, related.heap, ?_⟩
  rw [related.station, ← final_map]
  rfl

/-- Two access points, in a block that held something else. -/
def twoRecords : ScanAnswers where
  apNum := 3
  apList := some 4096
  apListMemory := List.replicate 3 ⟨Buffer.zero 33, 0⟩
  length_apListMemory := rfl
  records := [⟨Buffer.zero 33, -40⟩, ⟨Buffer.zero 33, -70⟩]
  length_records_le := by
    decide
  blufiApList := some 8192
  blufiApListMemory := List.replicate 2 ⟨Buffer.zero 33, 0⟩
  length_blufiApListMemory := rfl

/-- A phone that connects and asks for the list, and a scan for which there
is no second block. -/
def scanHistory : List HeapStationEvent :=
  [.other (.blufi (.bleConnect none)) rfl, .scanDone twoRecords,
    .scanDone { twoRecords with blufiApList := some 4096 }]

theorem scans_refine_station_scanHistory :
    (∃ reached,
        heapStationAfter ⟨Station.initial, Heap.empty⟩ scanHistory =
            .ok reached ∧
          reached.heap = Heap.empty ∧
          reached.station = final Station.handle Station.initial
            (scanHistory.map (HeapStationEvent.told Heap.empty))) ∧
      AtEveryStep
        (ShowsOutput HeapStation.handle (toldStation Heap.empty) id
          ⟨Station.initial, Heap.empty⟩ Station.initial) scanHistory := by
  refine scans_refine_station ⟨Station.initial, Heap.empty⟩ scanHistory ?_
  rw [scanHistory]
  simp only [List.forall_mem_cons]
  refine ⟨trivial, ?_, ?_, List.forall_mem_nil _⟩
  · intro isNil
    cases isNil
  · intro isNil
    cases isNil

end Esp32Source.Blufi
