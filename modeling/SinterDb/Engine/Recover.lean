import SinterDb.Engine.Checkpoint
import SinterDb.Engine.Manifest
import SinterDb.Wal.WriteAheadLog

namespace SinterDb

open Unicode
open Wal

/-!
# Opening a data directory

What the server checks before it replays the log: the manifest in
`prepareManifest`, the log in `WriteAheadLog.open`, and in `recover` the
snapshots and that the log goes on where the chosen snapshot ends.
-/

/-- The name of a log segment. -/
def segmentName (firstLsn : Nat) : JsString :=
  Json.padZeros 20 (Json.decimal firstLsn) ++ utf16 ".wal"

/-- `checkpointFileName`. -/
def checkpointFileName (lsn : Nat) : JsString :=
  Json.padZeros 20 (Json.decimal lsn) ++ utf16 ".snap"

/-- The fields of a manifest that the inspection looks at. -/
structure RawManifest where
  format : ManifestField
  formatVersion : ManifestField
  createdAt : ManifestField
  upgradedFrom : ManifestField
  migratingFrom : ManifestField
  deriving Repr, DecidableEq

/-- What `JSON.parse` makes of `manifest.json`; an array is an object without
the fields. -/
inductive ManifestJson where
  | missing
  | invalid (reason : JsString)
  | null
  | primitive
  | object (fields : RawManifest)
  deriving Repr, DecidableEq

/-- The manifest as `prepareManifest` sees it. -/
def ManifestJson.file : ManifestJson → Option ManifestFile
  | .missing => none
  | .invalid reason => some (.invalid reason)
  | .null => some .null
  | .primitive => some (.parsed .absent .absent .absent .absent)
  | .object fields =>
      some (.parsed fields.format fields.formatVersion fields.createdAt
        fields.migratingFrom)

/-- A snapshot file: the number that its name spells and its contents. -/
structure SnapshotFile where
  nameLsn : Nat
  bytes : Bytes
  deriving Repr, DecidableEq

/-- The entries of the `wal` directory: its segments, and the names of
everything else. -/
structure WalDirectory where
  segments : List SegmentFile
  otherNames : List JsString
  distinct : (segments.map SegmentFile.nameLsn).Nodup
  deriving Repr, DecidableEq

/-- The files of a data directory; the `wal` directory may be missing. -/
structure DataFiles where
  root : JsString
  manifest : ManifestJson
  temporary : Bool := false
  snapshots : List SnapshotFile
  wal : Option WalDirectory
  deriving Repr, DecidableEq

namespace DataFiles

/-- The segments of the log. -/
def segments (files : DataFiles) : List SegmentFile :=
  match files.wal with
  | none => []
  | some wal => wal.segments

/-- Two segments have different names. -/
theorem distinct_segments (files : DataFiles) :
    (files.segments.map SegmentFile.nameLsn).Nodup := by
  unfold segments
  cases files.wal with
  | none =>
      exact List.nodup_nil
  | some wal =>
      exact wal.distinct

/-- `hasLogData`. -/
def hasLogData (files : DataFiles) : Bool :=
  match files.wal with
  | none => false
  | some wal =>
      !wal.segments.isEmpty ||
        wal.otherNames.any fun name => (utf16 ".wal").isSuffixOf name

/-- What `prepareManifest` looks at. -/
def directory (files : DataFiles) : DataDirectory where
  root := files.root
  manifest := files.manifest.file
  temporary := files.temporary
  hasLogData := files.hasLogData

/-- `listCheckpoints`: the newest first. -/
def listCheckpoints (files : DataFiles) : List SnapshotFile :=
  files.snapshots.insertionSort fun first second =>
    second.nameLsn ≤ first.nameLsn

end DataFiles

/-- `STORAGE_FORMAT_VERSION`. -/
def storageFormatVersion : Nat := 2

/-- `MIGRATIONS`. -/
def migrations : List Migration :=
  [⟨1, 2,
    utf16 ("Version 2 adds index definitions to the log and to snapshots. " ++
      "Version 1 files are read as they are."),
    false⟩]

/-- The plan of this build. -/
def buildPlan : MigrationPlan :=
  ⟨storageFormatVersion, migrations⟩

/-- The reason why a snapshot with another number is not used. -/
def snapshotMisnamed : CheckpointDamagedError :=
  SnapshotReader.damaged
    "The snapshot's sequence number does not match its file name."

/-- `SkippedCheckpoint`. -/
structure SkippedCheckpoint where
  file : Nat
  reason : JsString
  deriving Repr, DecidableEq

/-- What the loop of `recover` over the snapshots has chosen and skipped. -/
structure SelectedBase where
  base : Option ReadCheckpoint
  baseFile : Option Nat
  skipped : List SkippedCheckpoint

/-- The sequence number of the chosen snapshot. -/
def SelectedBase.lsn (selected : SelectedBase) : Nat :=
  (selected.base.map ReadCheckpoint.lsn).getD 0

/-- The loop of `recover` over the snapshots. -/
def selectBase
    (skipped : List SkippedCheckpoint) : List SnapshotFile → SelectedBase
  | [] => ⟨none, none, skipped⟩
  | candidate :: rest =>
      let skip (error : CheckpointDamagedError) :=
        selectBase (skipped ++ [⟨candidate.nameLsn, error.message⟩]) rest
      match readCheckpoint candidate.bytes with
      | .error error => skip error
      | .ok base =>
          if base.lsn ≠ candidate.nameLsn then
            skip snapshotMisnamed
          else
            ⟨some base, some candidate.nameLsn, skipped⟩

/-- The reason of `recover` why the start of the log is missing. -/
def compactedAway
    (skipped : List SkippedCheckpoint)
    (firstLsn : Nat) : JsString :=
  if skipped = [] then
    utf16 (s!" The log before {firstLsn} has been removed and no snapshot " ++
      "covers it.")
  else
    utf16 (" The newer snapshot" ++
      (if 1 < skipped.length then "s" else "") ++ " (") ++
      (utf16 "; ").intercalate
        (skipped.map fun entry =>
          checkpointFileName entry.file ++ utf16 ": " ++ entry.reason) ++
      utf16 (s!") could not be read and the log before {firstLsn} has " ++
        "already been compacted away.")

/-- The checks of `recover` on the sequence numbers. -/
def checkSequence
    (root : JsString)
    (selected : SelectedBase)
    (log : WriteAheadLog) : Except Thrown Unit :=
  if selected.lsn + 1 < log.firstLsn then
    .error (corruption
      (utf16 "The data in " ++ root ++ utf16 " cannot be recovered." ++
        compactedAway selected.skipped log.firstLsn ++
        utf16 " Restore the data directory from a backup."))
  else if log.lastLsn < selected.lsn then
    .error (corruption
      (utf16 "The snapshot " ++ selected.baseFile.elim [] checkpointFileName ++
        utf16 (s!" covers log sequence number {selected.lsn} but the log " ++
          s!"ends at {log.lastLsn}. The log has lost records. Restore the " ++
          "data directory from a backup.")))
  else
    .ok ()

/-- Why a directory does not open. -/
inductive OpenError where
  | thrown (error : Thrown)
  | log (error : LogError)
  deriving Repr, DecidableEq

/-- Where `recover` starts from, and the records that it replays. -/
structure RecoveryStart where
  baseFile : Option Nat
  baseLsn : Nat
  replayed : List WalRecord
  deriving Repr, DecidableEq

/-- The first half of `recover`: choose the snapshot, check the numbers and
read the records behind it. -/
def startRecovery
    (files : DataFiles)
    (log : WriteAheadLog) : Except OpenError RecoveryStart :=
  let selected := selectBase [] files.listCheckpoints
  match checkSequence files.root selected log with
  | .error error => .error (.thrown error)
  | .ok () =>
      match (log.records selected.lsn).2 with
      | .error error => .error (.log error)
      | .ok records => .ok ⟨selected.baseFile, selected.lsn, records⟩

/-- `StorageEngine.open` up to the replay, when no file operation fails. -/
def openDirectory
    (plan : MigrationPlan)
    (options : WriteAheadLogOptions)
    (createdNow upgradedNow : JsString)
    (files : DataFiles) : Except OpenError RecoveryStart :=
  match (prepareManifest plan createdNow upgradedNow files.directory).2 with
  | .error error => .error (.thrown error)
  | .ok () =>
      match WriteAheadLog.openLog options files.segments [] with
      | .error error => .error (.log error)
      | .ok log => startRecovery files log

end SinterDb
