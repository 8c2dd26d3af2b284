import Esp32Source.Memory.StringCopy
import Mathlib.Logic.Function.Basic

/-!
# The paths of the sensors

`listDir` appends the path of every entry that looks like a sensor to the next
buffer.  It does not clear the buffers, it does not count them, and it does
not measure the names: the paths come out right exactly when there are at most
five sensors, when their names are short, and when the buffers that are used
happen to start with a NUL.
-/

namespace Esp32Source.ReadTherm

open Memory Machine

/-- `struct dirent`: a name of any bytes but NUL. -/
structure Dirent where
  dName : List UInt8
  free : NulFree dName
  deriving DecidableEq

def maxSlave : Nat := 5

/-- The buffers that `main` allocates, with any content. -/
abbrev Folders := Fin maxSlave → Buffer 55

/-! ## `listDir` -/

/-- The three appends of one entry. -/
def storeFolder (folder : Buffer 55) (entry : Dirent) :
    Except Fault (Buffer 55) := do
  let folder ← strcat folder (ascii "/sys/bus/w1/devices/")
  let folder ← strcat folder entry.dName
  strcat folder (ascii "/w1_slave")

/-- The loop over the entries that are left.  The count is a `char`, but it
is only ever raised inside the buffers. -/
def storeEntries (storeFolderName : Folders) (i : Nat) :
    List Dirent → Except Fault (Nat × Folders)
  | [] => .ok (i, storeFolderName)
  | entry :: entries =>
      if strstr entry.dName (ascii "28-") ≠ none then
        -- the source does not check i: a sixth sensor has no pointer
        if inRange : i < maxSlave then do
          let folder ← storeFolder (storeFolderName ⟨i, inRange⟩) entry
          storeEntries
            (Function.update storeFolderName ⟨i, inRange⟩ folder) (i + 1)
            entries
        else
          .error .outOfBounds
      else
        storeEntries storeFolderName i entries

/-- `listDir` of a directory that has the given entries, or that cannot be
opened. -/
def listDir (listing : Option (List Dirent)) (storeFolderName : Folders) :
    Except Fault (Int × Folders) :=
  match listing with
  | none => .ok (-1, storeFolderName)
  | some entries => do
      let (i, stored) ← storeEntries storeFolderName 0 entries
      return (i, stored)

/-! ## What it is for -/

/-- The entry looks like a sensor. -/
def IsSensor (entry : Dirent) : Prop :=
  ascii "28-" <:+: entry.dName

instance (entry : Dirent) : Decidable (IsSensor entry) :=
  inferInstanceAs (Decidable (ascii "28-" <:+: entry.dName))

/-- The sensors among the entries, in the order of the listing. -/
def sensors (entries : List Dirent) : List Dirent :=
  entries.filter (IsSensor ·)

def sensorPath (entry : Dirent) : List UInt8 :=
  ascii "/sys/bus/w1/devices/" ++ entry.dName ++ ascii "/w1_slave"

/-- The buffers from `i` on hold the paths of the sensors. -/
def StoredFrom (i : Nat) (folders : Folders) (found : List Dirent) : Prop :=
  ∀ (j : Fin maxSlave) (entry : Dirent),
    i ≤ j.val → found[j.val - i]? = some entry →
      cText (folders j).cells = sensorPath entry

/-- `listDir` stays inside the buffers, stores the path of every sensor, and
returns their number. -/
def StoresSensors (entries : List Dirent) (folders : Folders) : Prop :=
  ∃ stored,
    listDir (some entries) folders =
        .ok ((sensors entries).length, stored) ∧
      StoredFrom 0 stored (sensors entries)

/-- The buffers from `i` on have room for the paths of the sensors: there are
enough of them, the names are short, and the buffers hold the empty string. -/
structure RoomFrom (i : Nat) (folders : Folders) (found : List Dirent) :
    Prop where
  few : i + found.length ≤ maxSlave
  short : ∀ entry, entry ∈ found → entry.dName.length ≤ 25
  blank : ∀ j : Fin maxSlave, i ≤ j.val → j.val < i + found.length →
    (folders j).cells.head? = some 0

/-! ## One sensor -/

theorem nulFree_sensorPath (entry : Dirent) :
    NulFree (sensorPath entry) :=
  (NulFree.append (by decide) entry.free).append (by decide)

theorem length_sensorPath (entry : Dirent) :
    (sensorPath entry).length = entry.dName.length + 29 := by
  have front : (ascii "/sys/bus/w1/devices/").length = 20 := rfl
  have behind : (ascii "/w1_slave").length = 9 := rfl
  rw [sensorPath, List.length_append, List.length_append, front, behind]
  omega

/-- The three appends are one append of the path. -/
theorem storeFolder_eq_ok_iff {folder stored : Buffer 55} {entry : Dirent} :
    storeFolder folder entry = .ok stored ↔
      strcat folder (sensorPath entry) = .ok stored := by
  rw [sensorPath, List.append_assoc,
    ← strcat_strcat_eq_ok_iff (by decide), storeFolder, bind_eq_ok_iff]
  refine exists_congr fun middle => and_congr_right fun _ => ?_
  rw [← strcat_strcat_eq_ok_iff entry.free, bind_eq_ok_iff]

/-- The path is stored whole exactly in an empty buffer, and for a short
name. -/
theorem storeFolder_whole_iff {folder : Buffer 55} {entry : Dirent} :
    (∃ stored,
        storeFolder folder entry = .ok stored ∧
          cText stored.cells = sensorPath entry) ↔
      folder.cells.head? = some 0 ∧ entry.dName.length ≤ 25 := by
  simp only [storeFolder_eq_ok_iff]
  rw [strcat_whole_iff (nulFree_sensorPath entry), length_sensorPath]
  exact and_congr_right fun _ => by omega

/-! ## All sensors -/

theorem storedFrom_cons_iff {i : Nat} {folders : Folders} {entry : Dirent}
    {found : List Dirent} (inRange : i < maxSlave) :
    StoredFrom i folders (entry :: found) ↔
      cText (folders ⟨i, inRange⟩).cells = sensorPath entry ∧
        StoredFrom (i + 1) folders found := by
  constructor
  · intro stored
    refine ⟨stored ⟨i, inRange⟩ entry (Nat.le_refl i) (by simp), ?_⟩
    intro j other behind isFound
    apply stored j other (Nat.le_of_succ_le behind)
    rw [show j.val - i = j.val - (i + 1) + 1 by omega,
      List.getElem?_cons_succ, isFound]
  · rintro ⟨first, rest⟩ j other behind isFound
    rcases Nat.eq_or_lt_of_le behind with same | later
    · obtain rfl : j = ⟨i, inRange⟩ := Fin.ext same.symm
      rw [Nat.sub_self, List.getElem?_cons_zero] at isFound
      rw [← Option.some.inj isFound]
      exact first
    · rw [show j.val - i = j.val - (i + 1) + 1 by omega,
        List.getElem?_cons_succ] at isFound
      exact rest j other later isFound

theorem roomFrom_cons_iff {i : Nat} {folders : Folders} {entry : Dirent}
    {found : List Dirent} (inRange : i < maxSlave) (folder : Buffer 55) :
    RoomFrom i folders (entry :: found) ↔
      ((folders ⟨i, inRange⟩).cells.head? = some 0 ∧
        entry.dName.length ≤ 25) ∧
        RoomFrom (i + 1) (Function.update folders ⟨i, inRange⟩ folder)
          found := by
  have kept {j : Fin maxSlave} (later : i + 1 ≤ j.val) :
      Function.update folders ⟨i, inRange⟩ folder j = folders j := by
    apply Function.update_of_ne
    rintro rfl
    exact absurd later (Nat.not_succ_le_self i)
  constructor
  · intro room
    have few := room.few
    rw [List.length_cons] at few
    refine ⟨⟨room.blank ⟨i, inRange⟩ (Nat.le_refl i) (by simp),
      room.short entry List.mem_cons_self⟩, by omega,
      fun other member => room.short other (List.mem_cons_of_mem _ member),
      ?_⟩
    intro j behind inFront
    rw [kept behind]
    apply room.blank j (Nat.le_of_succ_le behind)
    rw [List.length_cons]
    omega
  · rintro ⟨⟨isBlank, short⟩, room⟩
    have few := room.few
    refine ⟨by rw [List.length_cons]; omega,
      List.forall_mem_cons.mpr ⟨short, room.short⟩, ?_⟩
    intro j behind inFront
    rw [List.length_cons] at inFront
    rcases Nat.eq_or_lt_of_le behind with same | later
    · obtain rfl : j = ⟨i, inRange⟩ := Fin.ext same.symm
      exact isBlank
    · rw [← kept later]
      exact room.blank j later (by omega)

theorem sensors_cons_of_isSensor {entry : Dirent} (isSensor : IsSensor entry)
    (entries : List Dirent) :
    sensors (entry :: entries) = entry :: sensors entries :=
  List.filter_cons_of_pos (by simpa using isSensor)

theorem sensors_cons_of_not {entry : Dirent} (noSensor : ¬ IsSensor entry)
    (entries : List Dirent) :
    sensors (entry :: entries) = sensors entries :=
  List.filter_cons_of_neg (by simpa using noSensor)

theorem storeEntries_other {entry : Dirent} (noSensor : ¬ IsSensor entry)
    (folders : Folders) (i : Nat) (entries : List Dirent) :
    storeEntries folders i (entry :: entries) =
      storeEntries folders i entries := by
  rw [storeEntries, if_neg (fun isFound =>
    noSensor (strstr_ne_none_iff.mp isFound))]

/-- A sensor needs a buffer, and its path is stored there. -/
theorem storeEntries_sensor_eq_ok_iff {entry : Dirent}
    (isSensor : IsSensor entry) {folders : Folders} {i : Nat}
    {entries : List Dirent} {result : Nat × Folders} :
    storeEntries folders i (entry :: entries) = .ok result ↔
      ∃ (inRange : i < maxSlave) (folder : Buffer 55),
        storeFolder (folders ⟨i, inRange⟩) entry = .ok folder ∧
          storeEntries (Function.update folders ⟨i, inRange⟩ folder)
            (i + 1) entries = .ok result := by
  rw [storeEntries, if_pos (strstr_ne_none_iff.mpr isSensor)]
  by_cases inRange : i < maxSlave
  · rw [dif_pos inRange, bind_eq_ok_iff, exists_prop_of_true inRange]
  · rw [dif_neg inRange]
    refine iff_of_false ?_ fun stored => inRange stored.1
    intro isOk
    cases isOk

/-- The loop counts the sensors, and the buffers in front are kept. -/
theorem storeEntries_keeps {entries : List Dirent} {folders stored : Folders}
    {i count : Nat}
    (isStored : storeEntries folders i entries = .ok (count, stored)) :
    count = i + (sensors entries).length ∧
      ∀ j : Fin maxSlave, j.val < i → stored j = folders j := by
  induction entries generalizing folders i with
  | nil =>
      cases isStored
      exact ⟨rfl, fun _ _ => rfl⟩
  | cons entry entries inductionHypothesis =>
      by_cases isSensor : IsSensor entry
      · obtain ⟨inRange, folder, _, isRest⟩ :=
          (storeEntries_sensor_eq_ok_iff isSensor).mp isStored
        obtain ⟨isCount, kept⟩ := inductionHypothesis isRest
        rw [sensors_cons_of_isSensor isSensor, List.length_cons]
        refine ⟨by omega, fun j inFront => ?_⟩
        rw [kept j (Nat.lt_succ_of_lt inFront), Function.update_of_ne]
        rintro rfl
        exact absurd inFront (Nat.lt_irrefl i)
      · rw [storeEntries_other isSensor] at isStored
        rw [sensors_cons_of_not isSensor]
        exact inductionHypothesis isStored

/-- The buffer of the current sensor is not changed for the later ones. -/
theorem storeEntries_current {entries : List Dirent}
    {folders stored : Folders} {i count : Nat} (inRange : i < maxSlave)
    {folder : Buffer 55}
    (isStored :
      storeEntries (Function.update folders ⟨i, inRange⟩ folder) (i + 1)
        entries = .ok (count, stored)) :
    stored ⟨i, inRange⟩ = folder := by
  rw [(storeEntries_keeps isStored).2 ⟨i, inRange⟩ (Nat.lt_succ_self i),
    Function.update_self]

/-- The paths are stored from `i` on exactly where there is room for
them. -/
theorem storeEntries_iff {entries : List Dirent} {folders : Folders}
    {i : Nat} (inside : i ≤ maxSlave) :
    (∃ count stored,
        storeEntries folders i entries = .ok (count, stored) ∧
          StoredFrom i stored (sensors entries)) ↔
      RoomFrom i folders (sensors entries) := by
  induction entries generalizing folders i with
  | nil =>
      refine iff_of_true ⟨i, folders, rfl, ?_⟩ ⟨inside, ?_, ?_⟩
      · intro j entry _ isFound
        cases isFound
      · intro entry member
        cases member
      · intro j behind inFront
        exact absurd behind (Nat.not_le_of_lt inFront)
  | cons entry entries inductionHypothesis =>
      by_cases isSensor : IsSensor entry
      · simp only [storeEntries_sensor_eq_ok_iff isSensor,
          sensors_cons_of_isSensor isSensor]
        constructor
        · rintro ⟨count, stored, ⟨inRange, folder, isFolder, isRest⟩,
            allStored⟩
          obtain ⟨first, rest⟩ :=
            (storedFrom_cons_iff inRange).mp allStored
          rw [storeEntries_current inRange isRest] at first
          exact (roomFrom_cons_iff inRange folder).mpr
            ⟨storeFolder_whole_iff.mp ⟨folder, isFolder, first⟩,
              (inductionHypothesis inRange).mp ⟨count, stored, isRest,
                rest⟩⟩
        · intro room
          have inRange : i < maxSlave := by
            have few := room.few
            rw [List.length_cons] at few
            omega
          obtain ⟨folder, isFolder, first⟩ :=
            storeFolder_whole_iff.mpr
              ((roomFrom_cons_iff inRange (folders ⟨i, inRange⟩)).mp room).1
          obtain ⟨count, stored, isRest, rest⟩ :=
            (inductionHypothesis inRange).mpr
              ((roomFrom_cons_iff inRange folder).mp room).2
          refine ⟨count, stored, ⟨inRange, folder, isFolder, isRest⟩,
            (storedFrom_cons_iff inRange).mpr ⟨?_, rest⟩⟩
          rw [storeEntries_current inRange isRest]
          exact first
      · simp only [storeEntries_other isSensor,
          sensors_cons_of_not isSensor]
        exact inductionHypothesis inside

/-- `listDir` stores the paths of all sensors exactly when the buffers have
room for them. -/
theorem storesSensors_iff (entries : List Dirent) (folders : Folders) :
    StoresSensors entries folders ↔
      RoomFrom 0 folders (sensors entries) := by
  rw [← storeEntries_iff (Nat.zero_le maxSlave), StoresSensors]
  constructor
  · rintro ⟨stored, isStored, paths⟩
    rw [listDir, bind_eq_ok_iff] at isStored
    obtain ⟨⟨count, same⟩, isLoop, isResult⟩ := isStored
    cases isResult
    exact ⟨_, stored, isLoop, paths⟩
  · rintro ⟨count, stored, isStored, paths⟩
    refine ⟨stored, ?_, paths⟩
    have isCount := (storeEntries_keeps isStored).1
    rw [Nat.zero_add] at isCount
    rw [listDir, bind_eq_ok_iff]
    exact ⟨_, isStored, by rw [isCount]; rfl⟩

/-- A buffer that holds `x` before the call keeps it in front of the path, and
a sixth sensor has no buffer. -/
theorem oneSensor_not_stored :
    ¬ StoresSensors [⟨ascii "28-000005e2fdc3", by decide⟩]
        (fun _ => ⟨120 :: List.replicate 54 0, by decide⟩) ∧
      ¬ StoresSensors
        (List.replicate 6 ⟨ascii "28-000005e2fdc3", by decide⟩)
        (fun _ => Buffer.zero 55) := by
  constructor
  · rintro ⟨stored, isStored, paths⟩
    have ran :
        (listDir (some [⟨ascii "28-000005e2fdc3", by decide⟩])
            (fun _ => ⟨120 :: List.replicate 54 0, by decide⟩)).map
          (fun result => cText (result.2 ⟨0, by decide⟩).cells) =
          .ok (ascii "x/sys/bus/w1/devices/28-000005e2fdc3/w1_slave") := by
      decide +kernel
    rw [isStored] at ran
    have path := paths ⟨0, by decide⟩
      ⟨ascii "28-000005e2fdc3", by decide⟩ (Nat.le_refl 0)
      (by decide +kernel)
    exact absurd (path.symm.trans (Except.ok.inj ran)) (by decide +kernel)
  · rintro ⟨stored, isStored, _⟩
    have ran :
        (listDir
            (some (List.replicate 6 ⟨ascii "28-000005e2fdc3", by decide⟩))
            (fun _ => Buffer.zero 55)).map Prod.fst =
          .error .outOfBounds := by
      decide +kernel
    rw [isStored] at ran
    cases ran

end Esp32Source.ReadTherm
