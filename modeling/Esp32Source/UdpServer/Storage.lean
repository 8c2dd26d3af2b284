import Esp32Source.Memory.CString
import Esp32Source.Machine.History

/-!
# Credential storage on the wear-levelled FAT partition

Both storage functions mount the partition, open a file, use it and unmount
again.  Whether the partition is mounted is state that they share and that
no caller sees.

The answers of the file system are given with each call: whether a mount that
is attempted while unmounted succeeds, and whether `fopen` does.  A mount of
a mounted partition fails, an unmount of a mounted partition succeeds.
-/

namespace Esp32Source.UdpServer

open Memory Machine

structure Storage where
  mounted : Bool
  files : List UInt8 → Option (List UInt8)

inductive MountResult where
  | ok
  | failed
  | alreadyMounted
  deriving DecidableEq, Repr

/-- What the environment decides about one call: the answers of the file
system, and the bytes that its uninitialised arrays happen to hold. -/
structure StorageAnswers where
  mountSucceeds : Bool
  fopenSucceeds : Bool
  line : Buffer 128 := Buffer.zero 128
  multiline : Buffer 384 := Buffer.zero 384

/-- The mount and the `fopen` of the call succeed, as far as they can. -/
def StorageAnswers.Succeed (answers : StorageAnswers) : Prop :=
  answers.mountSucceeds = true ∧ answers.fopenSucceeds = true

/-- `esp_vfs_fat_spiflash_mount_rw_wl` -/
def mountRwWl (storage : Storage) (succeeds : Bool) :
    Storage × MountResult :=
  if storage.mounted then (storage, .alreadyMounted)
  else if succeeds then ({ storage with mounted := true }, .ok)
  else (storage, .failed)

/-- `esp_vfs_fat_spiflash_unmount_rw_wl` -/
def unmountRwWl (storage : Storage) : Storage :=
  { storage with mounted := false }

/-- The output of `fprintf(fd, data)`, called without arguments: `%%` prints
one percent sign and every other conversion has nothing to convert. -/
def formatOutput : List UInt8 → Except Fault (List UInt8)
  | [] => .ok []
  | 37 :: 37 :: rest => do return 37 :: (← formatOutput rest)
  | 37 :: _ => .error .missingArgument
  | byte :: rest => do return byte :: (← formatOutput rest)

/-- What a storage function hands back: how its mount went and, for a read,
the returned row of `multiline`, or `none` for a null pointer. -/
structure StorageReply where
  mount : MountResult
  row : Option (List UInt8) := none
  deriving DecidableEq, Repr

def wearLevellingStorage (storage : Storage) (fileName data : List UInt8)
    (answers : StorageAnswers) : Except Fault (Storage × StorageReply) :=
  match mountRwWl storage answers.mountSucceeds with
  | (storage, .ok) =>
      if answers.fopenSucceeds then do
        let written ← formatOutput (cText data)
        let files := Function.update storage.files fileName (some written)
        return (unmountRwWl { storage with files }, { mount := .ok })
      else
        -- this return leaves the partition mounted
        .ok (storage, { mount := .ok })
  | (storage, mount) => .ok (storage, { mount })

/-! ## Reading the file line by line -/

/-- The record that `fgets` with a count of 128 reads next: at most 127
bytes, up to and including the first newline. -/
def fgetsRecord (content : List UInt8) : List UInt8 :=
  let available := content.take 127
  match available.findIdx? (· = 10) with
  | some newline => available.take (newline + 1)
  | none => available

/-- The records of the whole file.  Every record takes at least one byte, so
the length of the content is enough fuel. -/
def fgetsRecords : Nat → List UInt8 → List (List UInt8)
  | 0, _ => []
  | _, [] => []
  | fuel + 1, content =>
      let record := fgetsRecord content
      record :: fgetsRecords fuel (content.drop record.length)

/-- The read loop: `fgets` stores the record and a NUL in `line`, and all 128
bytes of `line` are copied to row `i`, an `unsigned char`. -/
def storeRecords (line : Buffer 128) (multiline : Buffer 384) (i : Nat) :
    List (List UInt8) → Except Fault (Buffer 384)
  | [] => .ok multiline
  | record :: records => do
      let line ← line.store 0 (record ++ [0])
      let multiline ← multiline.store (128 * i) line.cells
      storeRecords line multiline ((i + 1) % 256) records

def wearLevellingStorageRead (storage : Storage) (fileName : List UInt8)
    (answers : StorageAnswers) : Except Fault (Storage × StorageReply) :=
  match mountRwWl storage answers.mountSucceeds with
  | (storage, .ok) =>
      match storage.files fileName, answers.fopenSucceeds with
      | some content, true => do
          let records := fgetsRecords content.length content
          let multiline ←
            storeRecords answers.line answers.multiline 0 records
          return (unmountRwWl storage,
            { mount := .ok, row := some (multiline.window 0 128) })
      | _, _ => .ok (unmountRwWl storage, { mount := .ok })
  | (storage, mount) => .ok (storage, { mount })

inductive StorageCall where
  | write (fileName data : List UInt8) (answers : StorageAnswers)
  | read (fileName : List UInt8) (answers : StorageAnswers)

def handleStorage (storage : Storage) :
    StorageCall → Except Fault (Storage × StorageReply)
  | .write fileName data answers =>
      wearLevellingStorage storage fileName data answers
  | .read fileName answers =>
      wearLevellingStorageRead storage fileName answers

/-- The storage after a sequence of calls that starts unmounted. -/
def storageAfter (files : List UInt8 → Option (List UInt8))
    (calls : List StorageCall) : Except Fault Storage :=
  after handleStorage { mounted := false, files } calls

/-! ## The mount discipline -/

/-- Whenever the last of these calls returns, the partition is unmounted. -/
def Unmounted (files : List UInt8 → Option (List UInt8))
    (calls : List StorageCall) : Prop :=
  ∀ storage, storageAfter files calls = .ok storage →
    storage.mounted = false

/-- The call does not fail to mount because the partition is mounted. -/
def NotRefused (files : List UInt8 → Option (List UInt8))
    (calls : List StorageCall) (call : StorageCall) : Prop :=
  ∀ storage next reply,
    storageAfter files calls = .ok storage →
      handleStorage storage call = .ok (next, reply) →
        reply.mount ≠ .alreadyMounted

/-- The call is a write whose mount succeeds and whose `fopen` fails. -/
def StorageCall.OpensNothing : StorageCall → Prop
  | .write _ _ answers =>
      answers.mountSucceeds = true ∧ answers.fopenSucceeds = false
  | .read _ _ => False

/-- The calls in front of this one all return, and then it is no write whose
mount succeeds and whose `fopen` fails. -/
def OpensItsFile (files : List UInt8 → Option (List UInt8))
    (calls : List StorageCall) (call : StorageCall) : Prop :=
  (∃ storage, storageAfter files calls = .ok storage) → ¬ call.OpensNothing

theorem mountRwWl_of_unmounted {storage : Storage}
    (unmounted : storage.mounted = false) (succeeds : Bool) :
    mountRwWl storage succeeds =
      if succeeds then ({ storage with mounted := true }, .ok)
      else (storage, .failed) := by
  rw [mountRwWl, unmounted]
  rfl

/-- A write from an unmounted partition that returns leaves it mounted exactly
when the mount succeeded and `fopen` failed. -/
theorem wearLevellingStorage_mounted_iff
    {storage next : Storage} {fileName data : List UInt8}
    {answers : StorageAnswers} {reply : StorageReply}
    (unmounted : storage.mounted = false)
    (returned :
      wearLevellingStorage storage fileName data answers =
        .ok (next, reply)) :
    reply.mount ≠ .alreadyMounted ∧
      (next.mounted = true ↔
        answers.mountSucceeds = true ∧ answers.fopenSucceeds = false) := by
  rw [wearLevellingStorage, mountRwWl_of_unmounted unmounted] at returned
  cases mounts : answers.mountSucceeds with
  | false =>
      rw [mounts] at returned
      cases returned
      exact ⟨by decide, by simp [unmounted]⟩
  | true =>
      rw [mounts] at returned
      cases opens : answers.fopenSucceeds with
      | false =>
          rw [opens] at returned
          cases returned
          exact ⟨by decide, by simp⟩
      | true =>
          rw [opens] at returned
          cases format : formatOutput (cText data) with
          | error fault =>
              rw [format] at returned
              cases returned
          | ok written =>
              rw [format] at returned
              cases returned
              exact ⟨by decide, by simp [unmountRwWl]⟩

/-- Every path of a read that starts unmounted ends unmounted. -/
theorem wearLevellingStorageRead_unmounted
    {storage next : Storage} {fileName : List UInt8}
    {answers : StorageAnswers} {reply : StorageReply}
    (unmounted : storage.mounted = false)
    (returned :
      wearLevellingStorageRead storage fileName answers =
        .ok (next, reply)) :
    reply.mount ≠ .alreadyMounted ∧ next.mounted = false := by
  rw [wearLevellingStorageRead, mountRwWl_of_unmounted unmounted] at returned
  cases mounts : answers.mountSucceeds with
  | false =>
      rw [mounts] at returned
      cases returned
      exact ⟨by decide, unmounted⟩
  | true =>
      rw [mounts, if_pos rfl] at returned
      dsimp only at returned
      split at returned
      · obtain ⟨multiline, _, rest⟩ := bind_eq_ok_iff.mp returned
        cases rest
        exact ⟨MountResult.noConfusion, rfl⟩
      · cases returned
        exact ⟨MountResult.noConfusion, rfl⟩

/-- While the partition is unmounted, the next call that returns leaves it
unmounted exactly when it opens its file. -/
theorem unmounted_concat_iff
    {files : List UInt8 → Option (List UInt8)}
    {calls : List StorageCall} (call : StorageCall)
    (unmounted : Unmounted files calls) :
    Unmounted files (calls ++ [call]) ↔ OpensItsFile files calls call := by
  cases reached : storageAfter files calls with
  | error fault =>
      refine iff_of_true ?_ ?_
      · intro final reachedFinal
        obtain ⟨storage, reply, front, _⟩ :=
          after_concat_eq_ok_iff.mp reachedFinal
        have conflict := reached.symm.trans front
        cases conflict
      · intro exists_
        obtain ⟨storage, front⟩ := exists_
        have conflict := reached.symm.trans front
        cases conflict
  | ok storage =>
      have start : storage.mounted = false := unmounted storage reached
      cases call with
      | read fileName answers =>
          refine iff_of_true ?_ (fun _ opensNothing => opensNothing)
          intro final reachedFinal
          obtain ⟨front, reply, reachedFront, returned⟩ :=
            after_concat_eq_ok_iff.mp reachedFinal
          have same := reached.symm.trans reachedFront
          cases same
          exact (wearLevellingStorageRead_unmounted start returned).2
      | write fileName data answers =>
          constructor
          · intro unmountedNext _ opensNothing
            have left :
                handleStorage storage (.write fileName data answers) =
                  .ok ({ storage with mounted := true },
                    { mount := .ok }) := by
              rw [handleStorage, wearLevellingStorage,
                mountRwWl_of_unmounted start, opensNothing.1,
                opensNothing.2]
              rfl
            have stays :=
              unmountedNext _ (after_concat_of_ok reached left)
            cases stays
          · intro opens final reachedFinal
            obtain ⟨front, reply, reachedFront, returned⟩ :=
              after_concat_eq_ok_iff.mp reachedFinal
            have same := reached.symm.trans reachedFront
            cases same
            have mountedIff :=
              (wearLevellingStorage_mounted_iff start returned).2
            rw [← Bool.not_eq_true, mountedIff]
            exact opens ⟨storage, reached⟩

/-- In every run of storage calls, whatever the file system answers, the
partition is unmounted whenever a call returns, and no mount is refused,
exactly when no write whose mount succeeds fails to open its file. -/
theorem storage_unmounted_iff
    (files : List UInt8 → Option (List UInt8)) (calls : List StorageCall) :
    (AtEveryState (Unmounted files) calls ∧
        AtEveryStep (NotRefused files) calls) ↔
      AtEveryStep (OpensItsFile files) calls := by
  have statesIff :
      AtEveryState (Unmounted files) calls ↔
        AtEveryStep (OpensItsFile files) calls := by
    refine atEveryState_iff_atEveryStep (fun _ => True) ?_ ?_
      (fun _ _ => trivial)
    · intro storage reached
      cases reached
      rfl
    · intro earlier call _ _ everywhere
      exact unmounted_concat_iff call everywhere.last
  rw [← statesIff]
  refine and_iff_left_of_imp ?_
  intro unmounted front call behind shape storage next reply reached returned
  have start : storage.mounted = false :=
    unmounted front ⟨call :: behind, shape.symm⟩ storage reached
  cases call with
  | read fileName answers =>
      exact (wearLevellingStorageRead_unmounted start returned).1
  | write fileName data answers =>
      exact (wearLevellingStorage_mounted_iff start returned).1

/-- A write that cannot open its file, and the read that comes next. -/
def unopenedWrite : List StorageCall :=
  [.write (ascii "/spiflash/wifiInfo.txt") (ascii "what is")
      { mountSucceeds := true, fopenSucceeds := false },
    .read (ascii "/spiflash/wifiInfo.txt")
      { mountSucceeds := true, fopenSucceeds := true }]

/-- The write returns with the partition mounted, and the read that follows is
refused although its own mount would succeed. -/
theorem unopenedWrite_leaves_mounted :
    (storageAfter (fun _ => none) (unopenedWrite.take 1)).map
        Storage.mounted = .ok true ∧
      ¬ (AtEveryState (Unmounted fun _ => none) unopenedWrite ∧
        AtEveryStep (NotRefused fun _ => none) unopenedWrite) ∧
      ¬ AtEveryStep (NotRefused fun _ => none) unopenedWrite := by
  have refused :
      ¬ AtEveryStep (NotRefused fun _ => none) unopenedWrite := by
    intro notRefused
    exact notRefused (unopenedWrite.take 1) _ [] rfl _ _ _ rfl rfl rfl
  exact ⟨rfl, fun parts => refused parts.2, refused⟩

end Esp32Source.UdpServer
