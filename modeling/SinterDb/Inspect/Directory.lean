import SinterDb.Engine.Recover
import SinterDb.Inspect.Log

namespace SinterDb

open Unicode
open Wal

/-!
# The inspection of a data directory

`inspectDataDirectory` reads the manifest, the snapshots and the log, and
judges whether the server would start.  The server reads the same files in
`prepareManifest`, `WriteAheadLog.open` and `recover`.
-/

/-- `ManifestStatus`. -/
inductive ManifestStatus where
  | ok
  | missing
  | unreadable
  | foreign
  | invalid
  | newer
  deriving Repr, DecidableEq

/-- `ManifestReport`. -/
structure ManifestReport where
  status : ManifestStatus
  problem : Option JsString := none
  formatVersion : Option Nat := none
  createdAt : Option JsString := none
  upgradedFrom : ManifestField := .absent
  migratingFrom : ManifestField := .absent
  needsUpgrade : Bool := false
  deriving Repr, DecidableEq

namespace ManifestField

/-- `typeof value === "number"`. -/
def isNumber : ManifestField → Bool
  | .integer _ => true
  | .fraction _ => true
  | _ => false

/-- A field that is reported only if it is a number. -/
def ifNumber (field : ManifestField) : ManifestField :=
  if field.isNumber then field else .absent

/-- A field that is reported only if it is a string. -/
def text? : ManifestField → Option JsString
  | .text value => some value
  | _ => none

/-- An integer of at least one. -/
def version? : ManifestField → Option Nat
  | .integer (.ofNat (version + 1)) => some (version + 1)
  | _ => none

end ManifestField

/-- The version of an upgrade that was interrupted is one that this build can
upgrade from. -/
def isInterrupted (migratingFrom : ManifestField) : Bool :=
  match migratingFrom.version? with
  | none => false
  | some version => decide (version < storageFormatVersion)

/-- `inspectManifest` on an object. -/
def inspectFields (parsed : RawManifest) : ManifestReport :=
  if parsed.format ≠ .text storageFormat then
    { status := .foreign
      problem :=
        some (utf16 "manifest.json says the format is " ++
          parsed.format.json ++
          utf16 ", so this is not a SinterDB data directory.") }
  else
    match parsed.formatVersion.version? with
    | none =>
        { status := .invalid
          problem := some (utf16 "manifest.json has no valid format version.") }
    | some version =>
        let known : ManifestReport :=
          { status := .ok
            formatVersion := some version
            createdAt := parsed.createdAt.text?
            upgradedFrom := parsed.upgradedFrom.ifNumber
            migratingFrom := parsed.migratingFrom.ifNumber }
        if storageFormatVersion < version then
          { known with
            status := .newer
            problem :=
              some (utf16 (s!"The directory uses storage format version " ++
                s!"{version} but this version of SinterDB supports up to " ++
                s!"{storageFormatVersion}.")) }
        else if parsed.migratingFrom.isNumber &&
            !isInterrupted parsed.migratingFrom then
          { known with
            status := .invalid
            problem :=
              some (utf16
                "manifest.json records an upgrade from an invalid version.") }
        else
          { known with
            needsUpgrade :=
              decide (version < storageFormatVersion) ||
                isInterrupted parsed.migratingFrom }

/-- `inspectManifest`. -/
def inspectManifest : ManifestJson → ManifestReport
  | .missing => { status := .missing }
  | .invalid reason =>
      { status := .unreadable
        problem := some (utf16 "manifest.json is not valid JSON: " ++ reason) }
  | .null | .primitive =>
      { status := .unreadable
        problem := some (utf16 "manifest.json does not hold an object.") }
  | .object parsed => inspectFields parsed

/-- `SnapshotReport`. -/
structure SnapshotReport where
  lsn : Nat
  bytes : Nat
  ok : Bool
  problem : Option JsString := none
  collections : Option Nat := none
  documents : Option Nat := none
  deriving Repr, DecidableEq

/-- The report of a snapshot that cannot be used. -/
def damagedSnapshot
    (entry : SnapshotFile)
    (error : CheckpointDamagedError) : SnapshotReport where
  lsn := entry.nameLsn
  bytes := entry.bytes.length
  ok := false
  problem := some error.message

/-- One round of `inspectSnapshots`. -/
def inspectSnapshot (entry : SnapshotFile) : SnapshotReport :=
  match readCheckpoint entry.bytes with
  | .error error => damagedSnapshot entry error
  | .ok snapshot =>
      if snapshot.lsn ≠ entry.nameLsn then
        damagedSnapshot entry snapshotMisnamed
      else
        { lsn := entry.nameLsn
          bytes := entry.bytes.length
          ok := true
          collections := some snapshot.collections.length
          documents :=
            some (snapshot.collections.map fun collection =>
              collection.documents.size).sum }

/-- `inspectSnapshots`. -/
def inspectSnapshots (files : DataFiles) : List SnapshotReport :=
  files.listCheckpoints.map inspectSnapshot

/-- `RecoveryVerdict`. -/
structure RecoveryVerdict where
  recoverable : Bool
  problems : List JsString
  baseSnapshot : Option Nat
  baseLsn : Nat
  recordsToReplay : Int
  deriving Repr, DecidableEq

/-- The problem of `judge` with the manifest. -/
def manifestProblems
    (manifest : ManifestReport)
    (log : LogReport) : List JsString :=
  if manifest.status = .missing then
    if log.segments = [] then
      []
    else
      [utf16 "manifest.json is missing but the directory holds log files."]
  else if manifest.status ≠ .ok then
    [manifest.problem.getD (utf16 "manifest.json cannot be used.")]
  else
    []

/-- The reason of `judge` why the start of the log is missing. -/
def missingStart (snapshots : List SnapshotReport) (first : Nat) : JsString :=
  let skipped := snapshots.filter fun snapshot => !snapshot.ok
  if skipped = [] then
    utf16 (s!"The log before {first} has been removed and no snapshot " ++
      "covers it.")
  else
    utf16 (s!"The log before {first} has been removed and the newer " ++
      "snapshot" ++ (if 1 < skipped.length then "s" else "") ++ " (") ++
      (utf16 ", ").intercalate
        (skipped.map fun snapshot => checkpointFileName snapshot.lsn) ++
      utf16 ") cannot be read."

/-- The problems of `judge` with the log. -/
def logProblems
    (root : JsString)
    (snapshots : List SnapshotReport)
    (base : Option SnapshotReport)
    (log : LogReport) : List JsString :=
  let baseLsn := (base.map SnapshotReport.lsn).getD 0
  match log.damage with
  | some damage =>
      [utf16 "The log is damaged in " ++ root ++ utf16 "/wal/" ++
        segmentName damage.file ++
        utf16 (s!" at byte {damage.offset}: " ++ damage.reason)]
  | none =>
      let first := log.firstLsn.getD 1
      (if baseLsn + 1 < first then
        [missingStart snapshots first]
      else
        []) ++
      (if log.lastLsn < baseLsn then
        [utf16 "The snapshot " ++
          (base.elim [] fun base => checkpointFileName base.lsn) ++
          utf16 (s!" covers sequence number {baseLsn} but the log ends at " ++
            s!"{log.lastLsn}. The log has lost records.")]
      else
        [])

/-- `judge`. -/
def judge
    (root : JsString)
    (manifest : ManifestReport)
    (snapshots : List SnapshotReport)
    (log : LogReport) : RecoveryVerdict :=
  let base := snapshots.find? SnapshotReport.ok
  let baseLsn := (base.map SnapshotReport.lsn).getD 0
  let problems :=
    manifestProblems manifest log ++ logProblems root snapshots base log
  { recoverable := problems.isEmpty
    problems := problems
    baseSnapshot := base.map SnapshotReport.lsn
    baseLsn := baseLsn
    recordsToReplay :=
      if problems.isEmpty ∧ (baseLsn : Int) < log.lastLsn then
        log.lastLsn - baseLsn
      else
        0 }

/-- `InspectionReport`, without the lock and the leftovers. -/
structure InspectionReport where
  manifest : ManifestReport
  snapshots : List SnapshotReport
  log : LogReport
  recovery : RecoveryVerdict
  deriving Repr, DecidableEq

/-- `inspectDataDirectory`. -/
def inspectDataDirectory (files : DataFiles) : InspectionReport :=
  let manifest := inspectManifest files.manifest
  let snapshots := inspectSnapshots files
  let log := inspectLog files.segments
  { manifest := manifest
    snapshots := snapshots
    log := log
    recovery := judge files.root manifest snapshots log }

end SinterDb
