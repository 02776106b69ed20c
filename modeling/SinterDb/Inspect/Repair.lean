import SinterDb.Inspect.Directory

namespace SinterDb

open Unicode
open Wal

/-!
# The repair of a data directory

`repairDataDirectory` plans its actions from one report of the inspection and
then carries out those that are allowed, one after the other.  What an action
does is kept apart from its description, and a moved file goes to a quarantine
directory that is new.
-/

/-- The state of a `LockDescription`. -/
inductive LockState where
  | running
  | stale
  | foreign
  | unreadable
  deriving Repr, DecidableEq

/-- The holder of a lock, as far as the plan names it. -/
structure LockHolder where
  pid : Nat
  hostname : JsString
  deriving Repr, DecidableEq

/-- `LockDescription`. -/
structure LockDescription where
  state : LockState
  holder : Option LockHolder := none
  deriving Repr, DecidableEq

/-- `RepairOption`. -/
inductive RepairOption where
  | rebuildManifest
  | clearLock
  | allowDataLoss
  deriving Repr, DecidableEq

/-- The options of `RepairOptions` that allow an action. -/
structure RepairOptions where
  rebuildManifest : Bool := false
  clearLock : Bool := false
  allowDataLoss : Bool := false
  deriving Repr, DecidableEq

/-- `options[option] === true`. -/
def RepairOptions.given (options : RepairOptions) : RepairOption → Bool
  | .rebuildManifest => options.rebuildManifest
  | .clearLock => options.clearLock
  | .allowDataLoss => options.allowDataLoss

/-- What an action does; segments are named by their numbers. -/
inductive RepairStep where
  | rebuildManifest (moveOld : Bool)
  | quarantineSegments (names : List Nat)
  | truncateLog (dropped : List Nat) (cut : Option (Nat × Nat))
  | createSegment (firstLsn : Nat)
  | clearLock
  deriving Repr, DecidableEq

/-- `PlannedAction`. -/
structure PlannedAction where
  step : RepairStep
  description : JsString
  dataLoss : Bool
  requires : Option RepairOption := none
  deriving Repr, DecidableEq

/-- `isAllowed`. -/
def isAllowed (action : PlannedAction) (options : RepairOptions) : Bool :=
  match action.requires with
  | none => true
  | some option => options.given option

/-- The planned actions, and the reasons why something cannot be repaired. -/
structure RepairPlan where
  planned : List PlannedAction := []
  blocked : List JsString := []
  deriving Repr, DecidableEq

/-- `planManifest`. -/
def planManifest (report : InspectionReport) : RepairPlan :=
  let status := report.manifest.status
  if status = .foreign ∨ status = .newer then
    { blocked :=
        [report.manifest.problem.getD (utf16 "The manifest cannot be used.") ++
          utf16 " The repair command does not change it."] }
  else if status = .unreadable ∨ status = .invalid ∨
      (status = .missing ∧ report.log.segments ≠ []) then
    { planned :=
        [{ step := .rebuildManifest (status != .missing)
           description :=
            utf16 (s!"Write a new manifest.json for storage format version " ++
              s!"{storageFormatVersion}" ++
              (if status = .missing then
                ""
              else
                " and move the old one to quarantine") ++
              ". Only do this if the files were written by this version of " ++
              "SinterDB.")
           dataLoss := false
           requires := some .rebuildManifest }] }
  else
    {}

/-- `planLock`. -/
def planLock
    (lock : Option LockDescription)
    (options : RepairOptions) : RepairPlan :=
  match lock with
  | none => {}
  | some lock =>
      let pid :=
        (lock.holder.map fun holder => s!"{holder.pid}").getD "unknown"
      match lock.state with
      | .running =>
          { blocked :=
              [utf16 (s!"A running process (id {pid}) holds the lock on this " ++
                "directory. Stop it before repairing.")] }
      | .foreign =>
          { planned :=
              [{ step := .clearLock
                 description :=
                  utf16 "Take over the lock left by " ++
                    (lock.holder.map LockHolder.hostname).getD
                      (utf16 "another host") ++
                    utf16 (s!" (process {pid}). Only do this if that server " ++
                      "is no longer running.")
                 dataLoss := false
                 requires := some .clearLock }]
            blocked :=
              if options.clearLock then
                []
              else
                [utf16 ("The lock was written by another host, so nothing " ++
                  "can be changed without --clear-lock.")] }
      | _ => {}

/-- `hasLogShortfall`. -/
def hasLogShortfall (report : InspectionReport) : Prop :=
  report.recovery.baseLsn + 1 < report.log.firstLsn.getD 1 ∨
    report.log.lastLsn < report.recovery.baseLsn

instance (report : InspectionReport) : Decidable (hasLogShortfall report) :=
  inferInstanceAs (Decidable (_ ∨ _))

/-- A segment that the server does not get past. -/
def isBadSegment (segment : SegmentReport) (isLast : Bool) : Prop :=
  segment.status = .corrupt ∨ segment.status = .badHeader ∨
    (segment.status = .incompleteHeader ∧ isLast = false)

instance (segment : SegmentReport) (isLast : Bool) :
    Decidable (isBadSegment segment isLast) :=
  inferInstanceAs (Decidable (_ ∨ _ ∨ _))

/-- The loop of `firstCleanIndex`. -/
def firstCleanLoop : Nat → Nat → List SegmentReport → Nat
  | _, clean, [] => clean
  | index, clean, segment :: rest =>
      let afterBad :=
        if isBadSegment segment rest.isEmpty then index + 1 else clean
      let afterGap :=
        if segment.gap.isSome then max afterBad index else afterBad
      firstCleanLoop (index + 1) afterGap rest

/-- `firstCleanIndex`. -/
def firstCleanIndex (segments : List SegmentReport) : Nat :=
  firstCleanLoop 0 0 segments

/-- How many segments `planTruncation` keeps, and where it cuts the last of
them. -/
def truncationPoint
    (segments : List SegmentReport) :
    Option LogDamage → Nat × Option (Nat × Nat)
  | none => (segments.length, none)
  | some damage =>
      let index :=
        segments.findIdx fun segment => segment.file == damage.file
      match segments[index]? with
      -- The damage that the inspection reports is always in a segment.
      | none => (index, none)
      | some segment =>
          if segment.status = .corrupt ∧
              segmentHeaderSize < segment.validBytes then
            (index + 1, some (segment.file, segment.validBytes))
          else if segment.status = .corrupt then
            (index + 1, some (segment.file, segmentHeaderSize))
          else
            (index, none)

/-- The plural of a word in a description. -/
def pluralS (count : Nat) : String :=
  if count = 1 then "" else "s"

/-- The name of the snapshot in a description. -/
def baseName (report : InspectionReport) : JsString :=
  report.recovery.baseSnapshot.elim [] checkpointFileName

/-- The actions of `planTruncation` that start a new log. -/
def planNewLog (report : InspectionReport) : List PlannedAction :=
  let baseLsn := report.recovery.baseLsn
  let segments := report.log.segments
  { step := .quarantineSegments (segments.map SegmentReport.file)
    description :=
      utf16 (s!"Move all {segments.length} log segment" ++
        pluralS segments.length ++
        s!" to quarantine. The log ends at {report.log.lastLsn} but recovery " ++
        s!"needs it to reach {baseLsn}; writes made after the snapshot ") ++
        baseName report ++ utf16 " may be lost."
    dataLoss := true
    requires := some .allowDataLoss } ::
  (if 0 < baseLsn then
    [{ step := .createSegment (baseLsn + 1)
       description :=
        utf16 ("Start a new, empty log segment at sequence number " ++
          s!"{baseLsn + 1}.")
       dataLoss := false
       requires := some .allowDataLoss }]
  else
    [])

/-- The action of `planTruncation` that cuts the log. -/
def planCut
    (report : InspectionReport)
    (keep : Nat)
    (cut : Option (Nat × Nat)) : PlannedAction :=
  let dropped := report.log.segments.drop keep
  { step := .truncateLog (dropped.map SegmentReport.file) cut
    description :=
      utf16 s!"Cut the log after sequence number {report.log.lastLsn}" ++
        (cut.elim [] fun (file, offset) =>
          utf16 s!" (byte {offset} of " ++ segmentName file ++ utf16 ")") ++
        utf16 ((if 0 < dropped.length then
            s!" and move {dropped.length} later segment" ++
              pluralS dropped.length ++ " to quarantine"
          else
            "") ++
          ". Records after that point are lost.")
    dataLoss := true
    requires := some .allowDataLoss }

/-- `planTruncation`. -/
def planTruncation (report : InspectionReport) : RepairPlan :=
  let baseLsn := report.recovery.baseLsn
  let segments := report.log.segments
  let (keep, cut) := truncationPoint segments report.log.damage
  let kept := segments.take keep
  let keptFirst := kept.head?.bind SegmentReport.firstLsn
  if baseLsn + 1 < keptFirst.getD 0 then
    { blocked :=
        [utf16 (s!"The log before {keptFirst.getD 0} is gone and no readable " ++
          "snapshot covers it, so the repair command cannot rebuild the " ++
          "directory. Restore it from a backup.")] }
  else if kept = [] ∨ report.log.lastLsn < baseLsn then
    { planned := planNewLog report }
  else
    { planned := [planCut report keep cut] }

/-- The segments in front of the first clean one can be moved away: the
snapshot reaches up to the first one that is left. -/
def coversPrefix (report : InspectionReport) : Prop :=
  let segments := report.log.segments
  let baseLsn := report.recovery.baseLsn
  report.log.damage ≠ none ∧
    firstCleanIndex segments < segments.length ∧
    0 < baseLsn ∧
    (segments[firstCleanIndex segments]?.bind
      SegmentReport.firstLsn).getD (baseLsn + 2) ≤ baseLsn + 1

instance (report : InspectionReport) : Decidable (coversPrefix report) :=
  inferInstanceAs (Decidable (_ ∧ _ ∧ _ ∧ _))

/-- The action of `planLog` that moves segments away which a snapshot
covers. -/
def planPrefix (report : InspectionReport) : PlannedAction :=
  let moved :=
    report.log.segments.take (firstCleanIndex report.log.segments)
  { step := .quarantineSegments (moved.map SegmentReport.file)
    description :=
      utf16 (s!"Move {moved.length} damaged or disconnected log segment" ++
        pluralS moved.length ++ " (") ++
        (utf16 ", ").intercalate
          (moved.map fun segment => segmentName segment.file) ++
        utf16 ") to quarantine. The snapshot " ++ baseName report ++
        utf16 (" already holds everything they recorded, so no data is " ++
          "lost.")
    dataLoss := false }

/-- `planLog`. -/
def planLog (report : InspectionReport) : RepairPlan :=
  if report.recovery.problems = [] then
    {}
  else if report.log.damage = none ∧ ¬ hasLogShortfall report then
    {}
  else if coversPrefix report then
    { planned := [planPrefix report] }
  else
    planTruncation report

/-- The whole plan of `repairDataDirectory`. -/
def planRepair
    (report : InspectionReport)
    (lock : Option LockDescription)
    (options : RepairOptions) : RepairPlan where
  planned :=
    (planManifest report).planned ++ (planLog report).planned ++
      (planLock lock options).planned
  blocked :=
    (planManifest report).blocked ++ (planLog report).blocked ++
      (planLock lock options).blocked

/-- A file in the quarantine directory. -/
inductive Quarantined where
  | manifest (contents : ManifestJson)
  | segment (file : SegmentFile)
  | tail (name : Nat) (bytes : Bytes)
  deriving Repr, DecidableEq

/-- The data directory and the quarantine directory of a repair. -/
structure RepairState where
  files : DataFiles
  quarantine : List Quarantined := []
  deriving Repr, DecidableEq

/-- Why an action stops. -/
inductive RepairError where
  | io
  | range
  deriving Repr, DecidableEq

/-- Removing a segment leaves the names different. -/
theorem nodup_unlink
    {segments : List SegmentFile}
    (distinct : (segments.map SegmentFile.nameLsn).Nodup)
    (name : Nat) :
    ((unlink segments name).map SegmentFile.nameLsn).Nodup :=
  (List.filter_sublist.map _).nodup distinct

/-- Changing a segment leaves the names. -/
theorem map_nameLsn_changeFile
    (segments : List SegmentFile)
    (name : Nat)
    (change : Bytes → Bytes) :
    (changeFile segments name change).map SegmentFile.nameLsn =
      segments.map SegmentFile.nameLsn := by
  unfold changeFile
  rw [List.map_map]
  refine List.map_congr_left fun file _ => ?_
  simp only [Function.comp_apply]
  split_ifs <;> rfl

/-- A new segment has a new name. -/
theorem nodup_create
    {segments : List SegmentFile}
    (distinct : (segments.map SegmentFile.nameLsn).Nodup)
    {name : Nat}
    (fresh : (readSegment segments name).isSome = false)
    (contents : Bytes) :
    ((segments ++ [(⟨name, contents⟩ : SegmentFile)]).map
      SegmentFile.nameLsn).Nodup := by
  rw [List.map_append, List.map_singleton]
  refine distinct.append (List.nodup_singleton _) ?_
  intro other member isName
  obtain ⟨file, isFile, rfl⟩ := List.mem_map.mp member
  simp only [readSegment, Option.isSome_map, List.find?_isSome,
    Bool.eq_false_iff, ne_eq, not_exists, not_and] at fresh
  exact fresh file isFile (by simpa using List.mem_singleton.mp isName)

namespace WalDirectory

/-- The directory without a segment. -/
def removeSegment (wal : WalDirectory) (name : Nat) : WalDirectory where
  segments := unlink wal.segments name
  otherNames := wal.otherNames
  distinct := nodup_unlink wal.distinct name

/-- The directory with another content of a segment. -/
def changeSegment
    (wal : WalDirectory)
    (name : Nat)
    (change : Bytes → Bytes) : WalDirectory where
  segments := changeFile wal.segments name change
  otherNames := wal.otherNames
  distinct := by
    rw [map_nameLsn_changeFile]
    exact wal.distinct

/-- The directory with a new segment. -/
def addSegment
    (wal : WalDirectory)
    (name : Nat)
    (contents : Bytes)
    (fresh : (readSegment wal.segments name).isSome = false) :
    WalDirectory where
  segments := wal.segments ++ [⟨name, contents⟩]
  otherNames := wal.otherNames
  distinct := nodup_create wal.distinct fresh contents

end WalDirectory

/-- `ftruncateSync`. -/
def setLength (length : Nat) (bytes : Bytes) : Bytes :=
  bytes.take length ++ List.replicate (length - bytes.length) 0

namespace RepairState

/-- `quarantine` of a log segment. -/
def moveSegment
    (state : RepairState)
    (name : Nat) : Except RepairError RepairState :=
  match state.files.wal with
  | none => .error .io
  | some wal =>
      match readSegment wal.segments name with
      | none => .error .io
      | some bytes =>
          .ok
            { files :=
                { state.files with wal := some (wal.removeSegment name) }
              quarantine := state.quarantine ++ [.segment ⟨name, bytes⟩] }

/-- A loop of `quarantine` over log segments. -/
def moveSegments
    (state : RepairState) : List Nat → RepairState × Option RepairError
  | [] => (state, none)
  | name :: rest =>
      match state.moveSegment name with
      | .error error => (state, some error)
      | .ok state => state.moveSegments rest

/-- `truncateSegment`. -/
def truncateSegment
    (state : RepairState)
    (name offset : Nat) : RepairState × Option RepairError :=
  match state.files.wal with
  | none => (state, some .io)
  | some wal =>
      match readSegment wal.segments name with
      | none => (state, some .io)
      | some bytes =>
          ({ files :=
              { state.files with
                wal := some (wal.changeSegment name (setLength offset)) }
             quarantine :=
              if offset < bytes.length then
                state.quarantine ++ [.tail name (bytes.drop offset)]
              else
                state.quarantine },
            none)

/-- `createSegment` of the repair. -/
def createSegment
    (state : RepairState)
    (firstLsn : Nat) : RepairState × Option RepairError :=
  if 2 ^ 64 ≤ firstLsn then
    (state, some .range)
  else
    match state.files.wal with
    | none => (state, some .io)
    | some wal =>
        if fresh : (readSegment wal.segments firstLsn).isSome = false then
          ({ state with
              files :=
                { state.files with
                  wal :=
                    some (wal.addSegment firstLsn
                      (encodeSegmentHeader firstLsn) fresh) } },
            none)
        else
          (state, some .io)

/-- The manifest that the repair writes. -/
def newManifest (now : JsString) : ManifestJson :=
  .object
    ⟨.text storageFormat, .integer storageFormatVersion, .text now, .absent,
      .absent⟩

/-- What an action does. -/
def run
    (now : JsString)
    (state : RepairState) : RepairStep → RepairState × Option RepairError
  | .rebuildManifest moveOld =>
      ({ files := { state.files with manifest := newManifest now }
         quarantine :=
          if moveOld then
            state.quarantine ++ [.manifest state.files.manifest]
          else
            state.quarantine },
        none)
  | .quarantineSegments names => state.moveSegments names
  | .truncateLog dropped cut =>
      match state.moveSegments dropped with
      | (state, some error) => (state, some error)
      | (state, none) =>
          match cut with
          | none => (state, none)
          | some (name, offset) => state.truncateSegment name offset
  | .createSegment firstLsn => state.createSegment firstLsn
  | .clearLock => (state, none)

/-- The loop of `repairDataDirectory` over the planned actions. -/
def apply
    (now : JsString)
    (options : RepairOptions) :
    RepairState → List PlannedAction → RepairState × Option RepairError
  | state, [] => (state, none)
  | state, action :: rest =>
      if isAllowed action options then
        match state.run now action.step with
        | (state, some error) => (state, some error)
        | (state, none) => apply now options state rest
      else
        apply now options state rest

end RepairState

/-- The changes of `repairDataDirectory`, under the lock and on a directory
that has not changed since the plan. -/
def repairDataDirectory
    (now : JsString)
    (lock : Option LockDescription)
    (options : RepairOptions)
    (files : DataFiles) : RepairState × Option RepairError :=
  RepairState.apply now options { files := files }
    (planRepair (inspectDataDirectory files) lock options).planned

end SinterDb
