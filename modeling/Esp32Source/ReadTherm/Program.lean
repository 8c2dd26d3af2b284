import Esp32Source.Memory.LiveBlocks
import Esp32Source.ReadTherm.Bounds
import Esp32Source.ReadTherm.Folders
import Esp32Source.ReadTherm.Polling

/-!
# The whole program

`main` lists the sensors, reads how many there should be, and goes on to read
their temperatures in turn.  Each call of `readFile` takes a block that is
never given back, and what `malloc` returns is used without a check: the
program shows the temperatures until an allocation fails, and follows a null
pointer then.

The quotient of a temperature by 1000 and its decimal form are left out.  The
allocations that `main` itself makes are taken to succeed.
-/

namespace Esp32Source.ReadTherm

open Memory Machine

/-! ## `main` -/

/-- What a call of `readFile` meets: the files that can be opened, the answer
of `malloc`, and what the block and the arrays hold. -/
structure Moment where
  files : List UInt8 → Option (List UInt8)
  answer : Option Nat
  buffer : Buffer 256
  line : Buffer 100
  lineTemp : Buffer 10

/-- What `main` prints, and its calls of `sleep`. -/
inductive Shown where
  | numberOfSlave (slaves : Nat)
  | warning
  | found (slaves : Nat)
  | temperature (sensor : Nat) (thousandths : Int)
  | sleeps
  | notFound
  deriving DecidableEq, Repr

/-- A `char` is signed on some machines, and unsigned on others. -/
inductive CharType where
  | signed
  | unsigned
  deriving DecidableEq, Repr

def CharType.convert : CharType → Int → Int
  | .signed, value => value.bmod 256
  | .unsigned, value => value % 256

/-- The values of an `int`. -/
def IsInt (value : Int) : Prop :=
  -2147483648 ≤ value ∧ value < 2147483648

/-- What `%u` shows of an `int`. -/
def shownUnsigned (value : Int) : Nat :=
  (value % 4294967296).toNat

/-- The variables of `main`, the blocks of `readFile`, and what was shown.
The contents of those blocks are not read after the call. -/
structure Monitor where
  heap : Heap Unit
  /-- `none` when `main` has freed them -/
  getNameDS : Option Folders
  totalFile : Int
  numSlave : Int
  i : Nat
  shown : List Shown

/-- `line` behind `malloc`, and the arrays of the call. -/
def Moment.fresh (moment : Moment) (pointer : Nat) : Uninitialised where
  buffer := moment.buffer
  line := if pointer = 0 then none else some moment.line
  lineTemp := moment.lineTemp

def slaveCountPath : List UInt8 :=
  ascii "/sys/devices/w1_bus_master1/w1_master_slave_count"

/-- `main` up to the polling loop. -/
def startMain (charType : CharType) (listing : Option (List Dirent))
    (folders : Folders) (moment : Moment) : Except Fault Monitor := do
  let (count, stored) ← listDir listing folders
  let totalFile := charType.convert count
  let (heap, pointer) := Heap.empty.malloc moment.answer ()
  let line ← readFile (moment.files slaveCountPath) moment.buffer
    (moment.fresh pointer).line
  let numSlave ← atoi (← follow line)
  return {
    heap
    getNameDS := if 1 ≤ numSlave then some stored else none
    totalFile
    numSlave
    i := 0
    shown :=
      .numberOfSlave (shownUnsigned numSlave) ::
        (if totalFile = numSlave then [] else [.warning]) ++
        if 1 ≤ numSlave then [.found (shownUnsigned numSlave)]
        else [.notFound] }

/-- One test of the loop condition, with the pass behind it or, when the loop
ends, with the calls of `free`.  A program that has returned does nothing. -/
def pass (outside : OutsideStore) (monitor : Monitor) (moment : Moment) :
    Except Fault (Monitor × Unit) :=
  match monitor.getNameDS with
  | none => .ok (monitor, ())
  | some names =>
      if inside : monitor.i ≤ 1 then do
        let path ← readString (names ⟨monitor.i, Nat.lt_of_le_of_lt inside
          (by decide)⟩) 0
        let (heap, pointer) := monitor.heap.malloc moment.answer ()
        let thousandths ←
          getTemp outside (moment.files path) (moment.fresh pointer)
        let wraps : Bool := monitor.totalFile ≤ monitor.i + 1
        return ({ monitor with
          heap
          i := if wraps then 0 else monitor.i + 1
          shown := monitor.shown ++ .temperature monitor.i thousandths ::
            if wraps then [.sleeps] else [] }, ())
      else .ok ({ monitor with getNameDS := none }, ())

/-! ## What it is for -/

/-- What the program shows of its `k`-th reading, if it makes one: the
temperature, and a pause behind that of the last sensor. -/
def shownReading (slaves : Int) (sensors : Nat) (temperature : Nat → Int)
    (k : Nat) : List Shown :=
  match reading slaves sensors k with
  | none => []
  | some i =>
      .temperature i (temperature k) ::
        if sensors ≤ i + 1 then [.sleeps] else []

def shownReadings (slaves : Int) (sensors : Nat) (temperature : Nat → Int)
    (count : Nat) : List Shown :=
  (List.range count).flatMap (shownReading slaves sensors temperature)

/-- How many readings there are at the first `count` tests of the loop
condition. -/
def readingsMade (slaves : Int) (sensors count : Nat) : Nat :=
  (List.range count).countP fun k => (reading slaves sensors k).isSome

/-- The sensor whose turn it is shows the `k`-th temperature. -/
def ShowsTemperature (entries : List Dirent) (slaves : Int)
    (temperature : Nat → Int) (front : List Moment) (moment : Moment) :
    Prop :=
  ∀ i entry,
    reading slaves (sensors entries).length front.length = some i →
      (sensors entries)[i]? = some entry →
      ∃ file : SensorFile,
        moment.files (sensorPath entry) = some file.content ∧
          file.thousandths = temperature front.length

/-- Where there is a reading, `malloc` returns a block for it. -/
def Allocates (start : Monitor) (slaves : Int) (sensors : Nat)
    (front : List Moment) (moment : Moment) : Prop :=
  ∀ monitor,
    after (pass .elsewhere) start front = .ok monitor →
      (reading slaves sensors front.length).isSome →
      (monitor.heap.malloc moment.answer ()).2 ≠ 0

/-! ## One call of `readFile` -/

/-- What `readFile` returns holds the last record. -/
theorem readFile_of_records {content last : List UInt8}
    {earlier : List (List UInt8)}
    (shape : records 124 content = earlier ++ [last])
    (fit : ∀ record, record ∈ earlier ++ [last] →
      (cText record).length < 100)
    (free : NulFree last) (buffer : Buffer 256) (line : Buffer 100) :
    ∃ final rest,
      readFile (some content) buffer (some line) = .ok (some final) ∧
        final.cells = last ++ 0 :: rest := by
  obtain ⟨rest, cells⟩ := lineCells_concat line earlier last
  rw [cText_of_nulFree free] at cells
  rw [← shape] at fit cells
  exact ⟨⟨_, length_lineCells line fit⟩, rest,
    readFile_eq_some_iff.mpr ⟨fit, rfl⟩, cells⟩

/-- Without a block the call returns no line, or copies to a null pointer. -/
theorem readFile_of_noBlock (file : Option (List UInt8))
    (buffer : Buffer 256) :
    readFile file buffer none = .ok none ∨
      readFile file buffer none = .error .nullPointer := by
  cases file with
  | none =>
      exact Or.inl rfl
  | some content =>
      rw [readFile]
      cases records 124 content with
      | nil =>
          exact Or.inl rfl
      | cons record rest =>
          exact Or.inr rfl

/-- Either way a null pointer is followed. -/
theorem getTemp_of_noBlock (outside : OutsideStore)
    (file : Option (List UInt8)) (buffer : Buffer 256)
    (lineTemp : Buffer 10) :
    getTemp outside file ⟨buffer, none, lineTemp⟩ = .error .nullPointer := by
  rw [getTemp]
  rcases readFile_of_noBlock file buffer with isNone | faults
  · dsimp only
    rw [isNone]
    rfl
  · dsimp only
    rw [faults]
    rfl

/-- The number of a sensor is parsed exactly when `malloc` returns a block,
and then the store behind `lineTemp` is made. -/
theorem getTemp_of_moment {moment : Moment} {path : List UInt8}
    {file : SensorFile} (shows : moment.files path = some file.content)
    (outside : OutsideStore) (pointer : Nat) :
    getTemp outside (moment.files path) (moment.fresh pointer) =
      if pointer = 0 then .error .nullPointer
      else if outside = .faults then .error .outOfBounds
      else .ok file.thousandths := by
  rw [shows, Moment.fresh]
  by_cases isNull : pointer = 0
  · rw [if_pos isNull, if_pos isNull]
    exact getTemp_of_noBlock _ _ _ _
  · rw [if_neg isNull, if_neg isNull]
    have parsed := file.parses moment.buffer moment.line moment.lineTemp
    cases outside with
    | elsewhere =>
        exact parsed
    | faults =>
        exact getTemp_faults_of_parsed parsed

/-! ## Up to the loop -/

theorem CharType.convert_of_small (charType : CharType) {value : Int}
    (nonnegative : 0 ≤ value) (small : value < 128) :
    charType.convert value = value := by
  cases charType with
  | signed =>
      rw [convert, Int.bmod_def]
      omega
  | unsigned =>
      exact Int.emod_eq_of_lt nonnegative (by omega)

/-- The path in a buffer is read back. -/
theorem StoredFrom.readString {folders : Folders} {found : List Dirent}
    {i : Nat} {entry : Dirent} (stored : StoredFrom 0 folders found)
    (isEntry : found[i]? = some entry) (short : entry.dName.length ≤ 25)
    (inRange : i < maxSlave) :
    Memory.readString (folders ⟨i, inRange⟩) 0 = .ok (sensorPath entry) := by
  have path := stored ⟨i, inRange⟩ entry (Nat.zero_le i) isEntry
  rw [readString_eq_ok_iff, List.drop_zero, path]
  refine ⟨?_, rfl⟩
  rw [← length_cText_lt_iff, path, length_sensorPath,
    (folders ⟨i, inRange⟩).length_cells]
  omega

/-- The number of slaves, in the file of the bus master. -/
def slaveCount (slaves : Int) : List UInt8 :=
  decimal slaves ++ [newline]

theorem length_slaveCount_le {slaves : Int} (isInt : IsInt slaves) :
    (slaveCount slaves).length ≤ 12 := by
  rw [IsInt] at isInt
  have digits : (decimal slaves).length ≤ 11 := by
    apply length_decimal_le (by decide)
    · rw [show (10 ^ 10 : Nat) = 10000000000 from rfl]
      omega
    · rw [show (10 ^ (10 + 1) : Nat) = 100000000000 from rfl]
      omega
  rw [slaveCount, List.length_append, List.length_singleton]
  omega

theorem nulFree_slaveCount (slaves : Int) : NulFree (slaveCount slaves) := by
  apply NulFree.append
  · exact fun byte member => (SensorFile.plain_of_mem_decimal member).1
  · decide

theorem records_slaveCount {slaves : Int} (isInt : IsInt slaves) :
    records 124 (slaveCount slaves) = [slaveCount slaves] := by
  have isLine : IsLine (slaveCount slaves) :=
    ⟨_, rfl, fun member => (SensorFile.plain_of_mem_decimal member).2 rfl⟩
  have alone := records_line isLine
    (Nat.le_trans (length_slaveCount_le isInt) (by decide : 12 ≤ 124)) []
  rw [List.append_nil, records_nil] at alone
  exact alone

/-- The number in the file is read back. -/
theorem readFile_slaveCount {slaves : Int} (isInt : IsInt slaves)
    (buffer : Buffer 256) (line : Buffer 100) :
    ∃ final,
      readFile (some (slaveCount slaves)) buffer (some line) =
          .ok (some final) ∧
        atoi final = .ok slaves := by
  have free := nulFree_slaveCount slaves
  have short := length_slaveCount_le isInt
  have fit : ∀ record, record ∈ [] ++ [slaveCount slaves] →
      (cText record).length < 100 := by
    intro record member
    rw [List.mem_singleton.mp member, cText_of_nulFree free]
    omega
  obtain ⟨final, rest, isRead, cells⟩ :=
    readFile_of_records (records_slaveCount isInt) fit free buffer line
  have isText : readString final 0 = .ok (slaveCount slaves) := by
    rw [readString_eq_ok_iff, List.drop_zero, cells]
    exact ⟨by simp, (cText_terminated free rest).symm⟩
  have ends : EndsNumber [newline] := by
    intro byte behind shape
    cases shape
    rfl
  refine ⟨final, isRead, ?_⟩
  rw [atoi, isText]
  exact congrArg Except.ok (parseNumber_decimal slaves ends)

/-- What `main` shows in front of the readings. -/
def shownFirst (slaves : Int) (sensors : Nat) : List Shown :=
  .numberOfSlave (shownUnsigned slaves) ::
    (if (sensors : Int) = slaves then [] else [.warning]) ++
    if 1 ≤ slaves then [.found (shownUnsigned slaves)] else [.notFound]

/-- `main` gets to the loop with the paths of the sensors. -/
theorem startMain_starts (charType : CharType) {entries : List Dirent}
    {folders : Folders} {slaves : Int} {first : Moment}
    (room : RoomFrom 0 folders (sensors entries))
    (isInt : IsInt slaves)
    (counts : first.files slaveCountPath = some (slaveCount slaves))
    (allocates : ((Heap.empty : Heap Unit).malloc first.answer ()).2 ≠ 0) :
    ∃ stored,
      StoredFrom 0 stored (sensors entries) ∧
        startMain charType (some entries) folders first = .ok {
          heap := ((Heap.empty : Heap Unit).malloc first.answer ()).1
          getNameDS := if 1 ≤ slaves then some stored else none
          totalFile := (sensors entries).length
          numSlave := slaves
          i := 0
          shown := shownFirst slaves (sensors entries).length } := by
  obtain ⟨count, stored, isStored, paths⟩ :=
    (storeEntries_iff (Nat.zero_le maxSlave)).mpr room
  have isCount := (storeEntries_keeps isStored).1
  rw [Nat.zero_add] at isCount
  have few : (sensors entries).length ≤ 5 := by
    have few := room.few
    rw [Nat.zero_add] at few
    exact few
  have converts :
      charType.convert ((sensors entries).length : Int) =
        (sensors entries).length :=
    charType.convert_of_small (Int.natCast_nonneg _) (by omega)
  obtain ⟨final, isRead, isNumber⟩ :=
    readFile_slaveCount isInt first.buffer first.line
  refine ⟨stored, paths, ?_⟩
  rw [startMain, listDir, isStored, counts]
  dsimp only [bind, Except.bind, pure, Except.pure, Moment.fresh]
  rw [if_neg allocates, isRead]
  dsimp only [follow]
  rw [isNumber, isCount, converts]
  rfl

/-! ## The loop -/

/-- `i` at the `k`-th test of the loop condition, if `main` gets to it. -/
def indexIn (slaves : Int) (sensors k : Nat) : Option Nat :=
  if 1 ≤ slaves then indexAt sensors k else none

theorem reading_eq_some_iff {slaves : Int} {sensors k i : Nat} :
    reading slaves sensors k = some i ↔
      indexIn slaves sensors k = some i ∧ i ≤ 1 := by
  rw [reading, indexIn]
  by_cases anySlaves : 1 ≤ slaves
  · rw [if_pos anySlaves, if_pos anySlaves]
    cases indexAt sensors k with
    | none =>
        simp
    | some index =>
        by_cases inside : index ≤ 1
        · simp only [if_pos inside, Option.some.injEq]
          exact ⟨fun same => ⟨same, same ▸ inside⟩, And.left⟩
        · simp only [if_neg inside, Option.some.injEq]
          constructor
          · intro impossible
            cases impossible
          · rintro ⟨same, atMost⟩
            exact absurd (same ▸ atMost) inside
  · rw [if_neg anySlaves, if_neg anySlaves]
    simp

theorem indexIn_succ (slaves : Int) (sensors k : Nat) :
    indexIn slaves sensors (k + 1) =
      (reading slaves sensors k).map (nextIndex sensors) := by
  rw [reading, indexIn]
  by_cases anySlaves : 1 ≤ slaves
  · rw [if_pos anySlaves, if_pos anySlaves, indexAt]
    cases indexAt sensors k with
    | none =>
        rfl
    | some index =>
        by_cases inside : index ≤ 1
        · simp only [if_pos inside, Option.map_some]
        · simp only [if_neg inside, Option.map_none]
  · rw [if_neg anySlaves, if_neg anySlaves]
    rfl

theorem nextIndex_lt {sensors : Nat} (found : 1 ≤ sensors) (i : Nat) :
    nextIndex sensors i < sensors := by
  rw [nextIndex]
  split
  · exact found
  · omega

theorem reading_zero {slaves : Int} (anySlaves : 1 ≤ slaves)
    (sensors : Nat) : reading slaves sensors 0 = some 0 := by
  rw [reading, if_pos anySlaves]
  rfl

/-- The sensor of a reading is one of those found. -/
theorem reading_lt {slaves : Int} {sensors k i : Nat} (found : 1 ≤ sensors)
    (isReading : reading slaves sensors k = some i) : i < sensors := by
  obtain ⟨isIndex, _⟩ := reading_eq_some_iff.mp isReading
  cases k with
  | zero =>
      rw [indexIn] at isIndex
      split at isIndex
      · cases isIndex
        exact found
      · cases isIndex
  | succ k =>
      rw [indexIn_succ, Option.map_eq_some_iff] at isIndex
      obtain ⟨index, _, rfl⟩ := isIndex
      exact nextIndex_lt found index

section Loop

variable {entries : List Dirent} {slaves : Int} {temperature : Nat → Int}
  {stored : Folders} {start : Monitor} {first : Moment}

/-- What a run of the loop has come to. -/
structure Polled (entries : List Dirent) (slaves : Int)
    (temperature : Nat → Int) (stored : Folders) (first : Moment)
    (history : List Moment) (monitor : Monitor) : Prop where
  totalFile : monitor.totalFile = (sensors entries).length
  names : monitor.getNameDS =
    (indexIn slaves (sensors entries).length history.length).map
      fun _ => stored
  index : ∀ i,
    indexIn slaves (sensors entries).length history.length = some i →
      monitor.i = i
  shown : monitor.shown =
    shownFirst slaves (sensors entries).length ++
      shownReadings slaves (sensors entries).length temperature
        history.length
  /-- No block was given back. -/
  blocks : ∃ live,
    monitor.heap.LiveAt live ∧
      live.card =
        readingsMade slaves (sensors entries).length history.length + 1 ∧
      ∀ address, address ∈ live →
        ∃ moment, moment ∈ first :: history ∧
          moment.answer = some address

/-- A pass that makes a reading: it shows the temperature, unless there is no
block for it or the store behind `lineTemp` is a fault. -/
theorem pass_of_reading (outside : OutsideStore) {monitor : Monitor}
    {moment : Moment} {names : Folders} {path : List UInt8}
    {file : SensorFile}
    (isNames : monitor.getNameDS = some names) (inside : monitor.i ≤ 1)
    (isPath : readString (names ⟨monitor.i, Nat.lt_of_le_of_lt inside
      (by decide)⟩) 0 = .ok path)
    (shows : moment.files path = some file.content) :
    pass outside monitor moment =
      if (monitor.heap.malloc moment.answer ()).2 = 0 then
        .error .nullPointer
      else if outside = .faults then .error .outOfBounds
      else
        .ok ({ monitor with
          heap := (monitor.heap.malloc moment.answer ()).1
          i := if monitor.totalFile ≤ monitor.i + 1 then 0
            else monitor.i + 1
          shown := monitor.shown ++
            .temperature monitor.i file.thousandths ::
              if monitor.totalFile ≤ monitor.i + 1 then [.sleeps]
              else [] }, ()) := by
  have parses := getTemp_of_moment shows outside
    (monitor.heap.malloc moment.answer ()).2
  rw [pass, isNames]
  dsimp only [bind, Except.bind, pure, Except.pure]
  rw [dif_pos inside, isPath]
  dsimp only
  rw [parses]
  by_cases isNull : (monitor.heap.malloc moment.answer ()).2 = 0
  · rw [if_pos isNull, if_pos isNull]
  · rw [if_neg isNull, if_neg isNull]
    cases outside with
    | faults =>
        rfl
    | elsewhere =>
        simp only [reduceCtorEq, if_false, decide_eq_true_eq]

variable {history : List Moment} {monitor : Monitor} {moment : Moment}
  {folders : Folders}

/-- The pass of a reading, in a run of the loop. -/
theorem Polled.pass_eq (outside : OutsideStore) {i : Nat}
    (polled : Polled entries slaves temperature stored first history monitor)
    (room : RoomFrom 0 folders (sensors entries))
    (found : 1 ≤ (sensors entries).length)
    (paths : StoredFrom 0 stored (sensors entries))
    (shows : ShowsTemperature entries slaves temperature history moment)
    (isReading :
      reading slaves (sensors entries).length history.length = some i) :
    pass outside monitor moment =
      if (monitor.heap.malloc moment.answer ()).2 = 0 then
        .error .nullPointer
      else if outside = .faults then .error .outOfBounds
      else
        .ok ({ monitor with
          heap := (monitor.heap.malloc moment.answer ()).1
          i := nextIndex (sensors entries).length i
          shown := monitor.shown ++
            shownReading slaves (sensors entries).length temperature
              history.length }, ()) := by
  obtain ⟨isIndex, inside⟩ := reading_eq_some_iff.mp isReading
  have isI := polled.index i isIndex
  have inRange := reading_lt found isReading
  have isEntry : (sensors entries)[i]? = some (sensors entries)[i] :=
    List.getElem?_eq_getElem inRange
  have isNames : monitor.getNameDS = some stored := by
    rw [polled.names, isIndex]
    rfl
  obtain ⟨file, isFile, isTemperature⟩ := shows i _ isReading isEntry
  have isPath := paths.readString isEntry
    (room.short _ (List.getElem_mem inRange))
    (Nat.lt_of_le_of_lt inside (by decide))
  subst isI
  have atMost : ((sensors entries).length : Int) ≤ (monitor.i : Int) + 1 ↔
      (sensors entries).length ≤ monitor.i + 1 := by
    omega
  rw [pass_of_reading outside isNames inside isPath isFile, polled.totalFile,
    isTemperature, shownReading, isReading]
  simp only [atMost, nextIndex, ge_iff_le]

/-- Without a reading the loop ends, or has ended. -/
theorem Polled.pass_ends
    (polled : Polled entries slaves temperature stored first history monitor)
    (isEnd :
      reading slaves (sensors entries).length history.length = none) :
    pass .elsewhere monitor moment =
      .ok ({ monitor with getNameDS := none }, ()) := by
  cases isIndex :
      indexIn slaves (sensors entries).length history.length with
  | none =>
      have isNone : monitor.getNameDS = none := by
        rw [polled.names, isIndex]
        rfl
      obtain ⟨heap, names, totalFile, numSlave, i, shown⟩ := monitor
      obtain rfl : names = none := isNone
      rfl
  | some i =>
      have isI := polled.index i isIndex
      have isNames : monitor.getNameDS = some stored := by
        rw [polled.names, isIndex]
        rfl
      have outside : ¬ monitor.i ≤ 1 := by
        intro inside
        rw [isI] at inside
        have isReading := reading_eq_some_iff.mpr ⟨isIndex, inside⟩
        rw [isEnd] at isReading
        cases isReading
      rw [pass, isNames]
      dsimp only
      rw [dif_neg outside]

theorem shownReadings_succ (sensors count : Nat) :
    shownReadings slaves sensors temperature (count + 1) =
      shownReadings slaves sensors temperature count ++
        shownReading slaves sensors temperature count := by
  rw [shownReadings, List.range_succ, List.flatMap_append,
    List.flatMap_singleton]
  rfl

theorem readingsMade_succ (sensors count : Nat) :
    readingsMade slaves sensors (count + 1) =
      readingsMade slaves sensors count +
        if (reading slaves sensors count).isSome then 1 else 0 := by
  rw [readingsMade, List.range_succ, List.countP_append,
    List.countP_singleton]
  rfl

/-- A reading takes one block more. -/
theorem Polled.next {i : Nat}
    (polled : Polled entries slaves temperature stored first history monitor)
    (isReading :
      reading slaves (sensors entries).length history.length = some i)
    (allocates : (monitor.heap.malloc moment.answer ()).2 ≠ 0) :
    Polled entries slaves temperature stored first (history ++ [moment])
      { monitor with
        heap := (monitor.heap.malloc moment.answer ()).1
        i := nextIndex (sensors entries).length i
        shown := monitor.shown ++
          shownReading slaves (sensors entries).length temperature
            history.length } where
  totalFile := polled.totalFile
  names := by
    rw [polled.names, List.length_append, List.length_singleton,
      indexIn_succ, isReading, (reading_eq_some_iff.mp isReading).1]
    rfl
  index := by
    rw [List.length_append, List.length_singleton, indexIn_succ, isReading]
    intro index isIndex
    exact Option.some.inj isIndex
  shown := by
    rw [polled.shown, List.length_append, List.length_singleton,
      shownReadings_succ, List.append_assoc]
  blocks := by
    obtain ⟨live, isLive, isCount, wereGiven⟩ := polled.blocks
    obtain ⟨isNew, isLiveNext⟩ := isLive.malloc allocates
    refine ⟨_, isLiveNext, ?_, ?_⟩
    · rw [Finset.card_insert_of_notMem isNew, isCount, List.length_append,
        List.length_singleton, readingsMade_succ, isReading]
      rfl
    · intro address member
      rcases Finset.mem_insert.mp member with rfl | isOld
      · exact ⟨moment, by simp, Heap.answer_of_malloc allocates⟩
      · obtain ⟨earlier, inFront, isAnswer⟩ := wereGiven address isOld
        refine ⟨earlier, ?_, isAnswer⟩
        rw [← List.cons_append]
        exact List.mem_append_left _ inFront

theorem Polled.stays
    (polled : Polled entries slaves temperature stored first history monitor)
    (isEnd :
      reading slaves (sensors entries).length history.length = none) :
    Polled entries slaves temperature stored first (history ++ [moment])
      { monitor with getNameDS := none } where
  totalFile := polled.totalFile
  names := by
    rw [List.length_append, List.length_singleton, indexIn_succ, isEnd]
    rfl
  index := by
    rw [List.length_append, List.length_singleton, indexIn_succ, isEnd]
    intro index isIndex
    cases isIndex
  shown := by
    rw [polled.shown, List.length_append, List.length_singleton,
      shownReadings_succ, shownReading, isEnd, List.append_nil]
  blocks := by
    obtain ⟨live, isLive, isCount, wereGiven⟩ := polled.blocks
    refine ⟨live, isLive, ?_, ?_⟩
    · rw [isCount, List.length_append, List.length_singleton,
        readingsMade_succ, isEnd]
      rfl
    · intro address member
      obtain ⟨earlier, inFront, isAnswer⟩ := wereGiven address member
      refine ⟨earlier, ?_, isAnswer⟩
      rw [← List.cons_append]
      exact List.mem_append_left _ inFront

theorem Polled.handles
    (polled : Polled entries slaves temperature stored first history monitor)
    (room : RoomFrom 0 folders (sensors entries))
    (found : 1 ≤ (sensors entries).length)
    (paths : StoredFrom 0 stored (sensors entries))
    (shows : ShowsTemperature entries slaves temperature history moment)
    (allocates :
      (reading slaves (sensors entries).length history.length).isSome →
        (monitor.heap.malloc moment.answer ()).2 ≠ 0) :
    ∃ next output,
      pass .elsewhere monitor moment = .ok (next, output) ∧
        Polled entries slaves temperature stored first (history ++ [moment])
          next := by
  cases isReading :
      reading slaves (sensors entries).length history.length with
  | none =>
      exact ⟨_, (), polled.pass_ends isReading, polled.stays isReading⟩
  | some i =>
      have notNull := allocates (by rw [isReading]; rfl)
      refine ⟨_, (), ?_, polled.next isReading notNull⟩
      rw [polled.pass_eq .elsewhere room found paths shows isReading,
        if_neg notNull]
      rfl

theorem Polled.faults
    (polled : Polled entries slaves temperature stored first history monitor)
    (room : RoomFrom 0 folders (sensors entries))
    (found : 1 ≤ (sensors entries).length)
    (paths : StoredFrom 0 stored (sensors entries))
    (shows : ShowsTemperature entries slaves temperature history moment)
    (reached : after (pass .elsewhere) start history = .ok monitor)
    (violates :
      ¬ Allocates start slaves (sensors entries).length history moment) :
    pass .elsewhere monitor moment = .error .nullPointer := by
  rw [Allocates] at violates
  push Not at violates
  obtain ⟨same, alsoReached, isSome, isNull⟩ := violates
  obtain rfl : monitor = same :=
    Except.ok.inj (reached.symm.trans alsoReached)
  obtain ⟨i, isReading⟩ := Option.isSome_iff_exists.mp isSome
  rw [polled.pass_eq .elsewhere room found paths shows isReading,
    if_pos isNull]

/-- `main` gets to the loop, with one block of `readFile`. -/
theorem startMain_polled (charType : CharType)
    (room : RoomFrom 0 folders (sensors entries))
    (isInt : IsInt slaves)
    (counts : first.files slaveCountPath = some (slaveCount slaves))
    (begins : ((Heap.empty : Heap Unit).malloc first.answer ()).2 ≠ 0) :
    ∃ stored start,
      StoredFrom 0 stored (sensors entries) ∧
        startMain charType (some entries) folders first = .ok start ∧
        Polled entries slaves temperature stored first [] start := by
  obtain ⟨stored, paths, starts⟩ :=
    startMain_starts charType room isInt counts begins
  obtain ⟨isNew, isLive⟩ := Heap.liveAt_empty.malloc begins
  refine ⟨stored, _, paths, starts, ?_⟩
  exact
    { totalFile := rfl
      names := by
        rw [List.length_nil, indexIn]
        by_cases anySlaves : 1 ≤ slaves
        · rw [if_pos anySlaves, if_pos anySlaves]
          rfl
        · rw [if_neg anySlaves, if_neg anySlaves]
          rfl
      index := by
        intro i isIndex
        rw [List.length_nil, indexIn] at isIndex
        split at isIndex
        · exact Option.some.inj isIndex
        · cases isIndex
      shown := (List.append_nil _).symm
      blocks := by
        refine ⟨_, isLive, Finset.card_insert_of_notMem isNew, ?_⟩
        intro address member
        rcases Finset.mem_insert.mp member with rfl | impossible
        · exact ⟨first, by simp, Heap.answer_of_malloc begins⟩
        · exact absurd impossible (Finset.notMem_empty _) }

end Loop

/-- A moment at which the usual file is there, for one sensor. -/
def usualMoment (answer : Option Nat) : Moment where
  files path :=
    if path = slaveCountPath then some (slaveCount 1)
    else some usualFile.content
  answer
  buffer := Buffer.zero 256
  line := Buffer.zero 100
  lineTemp := Buffer.zero 10

def usualEntries : List Dirent :=
  [⟨ascii "w1_bus_master1", by decide⟩, ⟨ascii "28-000005e2fdc3", by decide⟩]

theorem usualMoment_shows {history : List Moment}
    (areUsual : ∀ moment, moment ∈ history →
      ∃ answer, moment = usualMoment answer) :
    AtEveryStep (ShowsTemperature usualEntries 1 fun _ => 23125) history := by
  intro front moment behind shape i entry _ isEntry
  obtain ⟨answer, rfl⟩ := areUsual moment (by rw [shape]; simp)
  refine ⟨usualFile, ?_, rfl⟩
  have isOne : sensors usualEntries =
      [⟨ascii "28-000005e2fdc3", by decide⟩] := by
    decide +kernel
  rw [isOne] at isEntry
  have isFirst : entry = ⟨ascii "28-000005e2fdc3", by decide⟩ :=
    List.mem_singleton.mp (List.mem_of_getElem? isEntry)
  rw [isFirst, usualMoment]
  dsimp only
  rw [if_neg (by decide +kernel)]

theorem usualEntries_room :
    RoomFrom 0 (fun _ => Buffer.zero 55) (sensors usualEntries) where
  few := by
    decide +kernel
  short := by
    decide +kernel
  blank := fun _ _ _ => rfl

theorem usualMoments_allocate {start : Monitor}
    (started : startMain .signed (some usualEntries)
      (fun _ => Buffer.zero 55) (usualMoment (some 1)) = .ok start) :
    AtEveryStep (Allocates start 1 (sensors usualEntries).length)
      [usualMoment (some 2), usualMoment (some 3)] := by
  rw [atEveryStep_cons_iff, atEveryStep_cons_iff]
  refine ⟨?_, ?_, atEveryStep_nil _⟩
  · intro monitor reached _ isNull
    cases reached
    have ran :
        (startMain .signed (some usualEntries) (fun _ => Buffer.zero 55)
            (usualMoment (some 1))).map
          (fun start => (start.heap.malloc (some 2) ()).2) = .ok 2 := by
      decide +kernel
    rw [started] at ran
    exact absurd (isNull.symm.trans (Except.ok.inj ran)) (by decide)
  · intro monitor reached _ isNull
    have ran :
        (startMain .signed (some usualEntries) (fun _ => Buffer.zero 55)
            (usualMoment (some 1)) >>= fun start =>
          after (pass .elsewhere) start [usualMoment (some 2)]).map
          (fun monitor => (monitor.heap.malloc (some 3) ()).2) = .ok 3 := by
      decide +kernel
    rw [started] at ran
    change (after (pass .elsewhere) start [usualMoment (some 2)]).map _ =
      _ at ran
    rw [reached] at ran
    exact absurd (isNull.symm.trans (Except.ok.inj ran)) (by decide)

end Esp32Source.ReadTherm
