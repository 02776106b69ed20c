import SinterDb.Engine.Recover
import SinterDb.Storage.CollectionRun

namespace SinterDb

open Unicode
open Wal

/-!
# The storage engine

`StorageEngine` over its log, its snapshot files and its collections.  What the
file system will do with the next steps of a checkpoint is part of the state: a
list of outcomes, of which an empty list means that everything succeeds.  A
background checkpoint goes on whenever the event loop lets it, so that its
steps are calls of their own.
-/

/-- `RecordType.Transaction`. -/
def transactionType : Int := 1

/-- `DEFAULT_CHECKPOINT_THRESHOLD_BYTES`. -/
def defaultCheckpointThresholdBytes : Nat := 64 * 1024 * 1024

/-- `DEFAULT_CHECKPOINT_RETENTION`. -/
def defaultCheckpointRetention : Nat := 2

/-- `toOperation`. -/
def toOperation
    (database collection : JsString) : JournalOperation → Operation
  | .createIndex spec => .createIndex database collection spec
  | .dropIndex name => .dropIndex database collection name
  | .put key document =>
      .put database collection (bytesFromHex key) document
  | .delete key => .delete database collection (bytesFromHex key)

/-- The error of a `RangeError` while a record is made. -/
def tooLarge (message : JsString) : Thrown :=
  .storage
    ⟨.invalidBatch,
      utf16 "The operation is too large to record: " ++ message, none⟩

/-- The collections of one database. -/
abbrev CollectionMap := JsMap JsString Collection

/-- The options of `StorageEngine.open` that it checks itself. -/
structure StorageEngineOptions where
  checkpointThresholdBytes : Option JsNumber := none
  memoryFlushIntervalMs : Option JsNumber := none
  checkpointIntervalMs : Option JsNumber := none
  checkpointRetention : Option JsNumber := none
  checkpointOnClose : Option Bool := none
  backgroundCheckpoints : Option Bool := none

/--
`Settings`, with the directory and the texts that come from the operating
system.
-/
structure EngineSettings where
  root : JsString
  errorText : LogError → JsString
  checkpointThresholdBytes : Nat
  checkpointRetention : Nat
  checkpointOnClose : Bool
  backgroundCheckpoints : Bool
  retains : 2 ≤ checkpointRetention

/-- `!Number.isSafeInteger(value) || value < least`. -/
def isBelow (least : Nat) (value : JsNumber) : Bool :=
  match value.toInt? with
  | some integer => !value.isSafeInteger || decide (integer < least)
  | none => true

/-- What a number that is not below anything stands for. -/
def wholeNumber (value : JsNumber) : Nat :=
  (value.toInt?.getD 0).toNat

/-- A number that is not below two is at least two. -/
theorem two_le_wholeNumber
    {value : JsNumber}
    (valid : ¬ isBelow 2 value = true) :
    2 ≤ wholeNumber value := by
  unfold isBelow at valid
  unfold wholeNumber
  cases isInteger : value.toInt? with
  | none =>
      simp [isInteger] at valid
  | some integer =>
      simp only [isInteger, Bool.or_eq_true, decide_eq_true_eq,
        not_or] at valid
      have least := valid.2
      simp only [Option.getD_some]
      omega

/-- The checks of `StorageEngine.open` on its options. -/
def readSettings
    (root : JsString)
    (errorText : LogError → JsString)
    (options : StorageEngineOptions) : Except Thrown EngineSettings :=
  let threshold :=
    options.checkpointThresholdBytes.getD
      (JsNumber.ofInt defaultCheckpointThresholdBytes)
  let flushInterval :=
    options.memoryFlushIntervalMs.getD (JsNumber.ofInt 100)
  let retention :=
    options.checkpointRetention.getD
      (JsNumber.ofInt defaultCheckpointRetention)
  if isBelow 1 threshold then
    .error (.other
      (utf16 "The checkpoint threshold must be a positive safe integer."))
  else if isBelow 1 flushInterval then
    .error (.other
      (utf16 "The memory flush interval must be a positive safe integer."))
  else if valid : isBelow 2 retention then
    .error (.other
      (utf16 "The checkpoint retention must be an integer of at least 2."))
  else if options.checkpointIntervalMs.any (isBelow 1) then
    .error (.other
      (utf16 "The checkpoint interval must be a positive safe integer."))
  else
    .ok
      { root := root
        errorText := errorText
        checkpointThresholdBytes := wholeNumber threshold
        checkpointRetention := wholeNumber retention
        checkpointOnClose := options.checkpointOnClose.getD true
        backgroundCheckpoints := options.backgroundCheckpoints.getD false
        retains := two_le_wholeNumber valid }

/-- What becomes of the next step of a checkpoint: of a step of
`writeCheckpointSteps`, or of the removal of an old snapshot. -/
inductive FileOutcome where
  | done
  | paused
  | failed (error : Thrown)
  | unsynced (error : Thrown)
  deriving Repr, DecidableEq

/-- `BegunCheckpoint`. -/
structure BegunCheckpoint where
  lsn : Nat
  collections : List CheckpointCollection
  documents : Nat
  bytes : Nat
  deriving Repr, DecidableEq

/-- Who handles the error of a background checkpoint. -/
inductive CheckpointCaller where
  | user
  | automatic
  | timer
  deriving Repr, DecidableEq

/-- `ActiveCheckpoint`. -/
structure ActiveCheckpoint where
  begun : BegunCheckpoint
  aborted : Bool
  caller : CheckpointCaller
  deriving Repr, DecidableEq

/-- `CheckpointResult`. -/
structure CheckpointResult where
  lsn : Nat
  file : JsString
  collections : Nat
  documents : Nat
  removedSnapshots : Nat
  removedSegments : Nat
  deriving Repr, DecidableEq

/-- `RecoveryReport`. -/
structure RecoveryReport where
  checkpointLsn : Nat
  checkpointFile : Option JsString
  skippedCheckpoints : List SkippedCheckpoint
  replayedRecords : Nat
  rebuiltIndexes : Nat
  lastLsn : Int
  deriving Repr, DecidableEq

/-- `StorageEngine`. -/
structure StorageEngine where
  settings : EngineSettings
  databases : JsMap JsString CollectionMap
  log : WriteAheadLog
  snapshots : List SnapshotFile
  outcomes : List FileOutcome
  closed : Bool
  lastCheckpoint : Nat
  bytesSinceCheckpoint : Nat
  nextCheckpointAt : Nat
  checkpointFailure : Option Thrown
  activeCheckpoint : Option ActiveCheckpoint
  rejections : List (CheckpointCaller × Thrown)
  report : RecoveryReport

/-- The error that a caller of the engine sees of an error of the log. -/
def EngineSettings.thrown (settings : EngineSettings) : LogError → Thrown
  | .type message => .other (utf16 message)
  | .range error => .other (utf16 error.message)
  | .diskFull => .storage ⟨.diskFull, settings.errorText .diskFull, none⟩
  | .io => .storage ⟨.io, settings.errorText .io, none⟩
  | .closed =>
      .storage ⟨.closed, utf16 "The write-ahead log is closed.", none⟩
  | .corruption file offset lsn reason =>
      corruption (settings.errorText (.corruption file offset lsn reason))

/-- A snapshot file in the place of one with the same name, if there is one. -/
def renameSnapshot
    (files : List SnapshotFile)
    (file : SnapshotFile) : List SnapshotFile :=
  if files.any fun other => other.nameLsn = file.nameLsn then
    files.map fun other =>
      if other.nameLsn = file.nameLsn then file else other
  else
    file :: files

/-- `listCheckpoints`: the newest first. -/
def newestFirst (files : List SnapshotFile) : List SnapshotFile :=
  files.insertionSort fun first second => second.nameLsn ≤ first.nameLsn

namespace StorageEngine

/-- `getCollection`. -/
def getCollection
    (engine : StorageEngine)
    (database collection : JsString) : Option Collection :=
  (engine.databases.get? database).bind fun collections =>
    collections.get? collection

/-- The end of `register`: a collection under its name. -/
def withCollection
    (engine : StorageEngine)
    (database collection : JsString)
    (store : Collection) : StorageEngine :=
  let collections := (engine.databases.get? database).getD .empty
  { engine with
    databases :=
      engine.databases.set database (collections.set collection store) }

/-- `assertOpen`. -/
def assertOpen (engine : StorageEngine) : Except Thrown Unit :=
  if engine.closed then
    .error (.storage
      ⟨.closed, utf16 "The storage engine is closed.", none⟩)
  else
    .ok ()

/-- The collections of `beginCheckpoint`. -/
def checkpointCollections
    (engine : StorageEngine) : List CheckpointCollection :=
  engine.databases.entries.flatMap fun database =>
    database.2.entries.map fun collection =>
      { database := database.1
        collection := collection.1
        documents := collection.2.documents.entries
        documentCount := collection.2.documents.size
        indexes := IndexSet.specs collection.2.indexes }

/-- `beginCheckpoint`; none when nothing was written since the last one. -/
def beginCheckpoint
    (engine : StorageEngine) :
    StorageEngine × Except Thrown (Option BegunCheckpoint) :=
  let lsn := engine.log.lastLsn.toNat
  if lsn = 0 ∨ lsn = engine.lastCheckpoint then
    (engine, .ok none)
  else
    match engine.log.sync with
    | (log, .error error) =>
        ({ engine with log := log }, .error (engine.settings.thrown error))
    | (log, .ok _) =>
        let collections := engine.checkpointCollections
        ({ engine with log := log },
          .ok (some
            { lsn := lsn
              collections := collections
              documents :=
                (collections.map CheckpointCollection.documentCount).sum
              bytes := engine.bytesSinceCheckpoint }))

/-- The next outcome, and the engine that waits for the one after it. -/
def takeOutcome (engine : StorageEngine) : FileOutcome × StorageEngine :=
  match engine.outcomes with
  | [] => (.done, engine)
  | outcome :: rest => (outcome, { engine with outcomes := rest })

/-- The last step of `writeCheckpointSteps`: the whole file is written under
its temporary name and then renamed. -/
def placeSnapshot
    (engine : StorageEngine)
    (begun : BegunCheckpoint)
    (outcome : FileOutcome) : StorageEngine × Except Thrown JsString :=
  match writeCheckpointSteps begun.lsn begun.collections with
  | .error error => (engine, .error error)
  | .ok bytes =>
      let placed :=
        { engine with
          snapshots := renameSnapshot engine.snapshots ⟨begun.lsn, bytes⟩ }
      match outcome with
      | .failed error => (engine, .error error)
      | .unsynced error => (placed, .error error)
      | _ => (placed, .ok (checkpointFileName begun.lsn))

/-- The loop of `finishCheckpoint` over the snapshots that are not kept. -/
def removeSnapshots :
    List SnapshotFile → StorageEngine → StorageEngine × Except Thrown Unit
  | [], engine => (engine, .ok ())
  | old :: rest, engine =>
      match engine.takeOutcome with
      | (.failed error, engine) => (engine, .error error)
      | (_, engine) =>
          removeSnapshots rest
            { engine with
              snapshots :=
                engine.snapshots.filter fun file =>
                  file.nameLsn != old.nameLsn }

/-- `finishCheckpoint`. -/
def finishCheckpoint
    (engine : StorageEngine)
    (begun : BegunCheckpoint)
    (file : JsString) :
    StorageEngine × Except Thrown (Option CheckpointResult) :=
  if engine.closed then
    (engine, .ok none)
  else
    let retention := engine.settings.checkpointRetention
    let snapshots := newestFirst engine.snapshots
    match removeSnapshots (snapshots.drop retention) engine with
    | (engine, .error error) => (engine, .error error)
    | (engine, .ok _) =>
        let (log, truncated) : WriteAheadLog × Except LogError Nat :=
          match snapshots[retention - 1]? with
          | none => (engine.log, .ok 0)
          | some oldestKept => engine.log.truncateThrough oldestKept.nameLsn
        match truncated with
        | .error error =>
            ({ engine with log := log },
              .error (engine.settings.thrown error))
        | .ok removedSegments =>
            ({ engine with
                log := log
                lastCheckpoint := begun.lsn
                bytesSinceCheckpoint :=
                  engine.bytesSinceCheckpoint - begun.bytes
                nextCheckpointAt := engine.settings.checkpointThresholdBytes
                checkpointFailure := none },
              .ok (some
                { lsn := begun.lsn
                  file := file
                  collections := begun.collections.length
                  documents := begun.documents
                  removedSnapshots := (snapshots.drop retention).length
                  removedSegments := removedSegments }))

/-- The end of the snapshot file, and then of the checkpoint. -/
def completeCheckpoint
    (engine : StorageEngine)
    (begun : BegunCheckpoint)
    (outcome : FileOutcome) :
    StorageEngine × Except Thrown (Option CheckpointResult) :=
  match engine.placeSnapshot begun outcome with
  | (engine, .error error) => (engine, .error error)
  | (engine, .ok file) => engine.finishCheckpoint begun file

/-- The outcome of a snapshot that is written without pausing, and the
outcomes behind it: the loop of `writeCheckpoint`. -/
def skipPauses : List FileOutcome → FileOutcome × List FileOutcome
  | [] => (.done, [])
  | .paused :: rest => skipPauses rest
  | outcome :: rest => (outcome, rest)

/-- `abort` on the checkpoint that is being written, if there is one. -/
def abortActive (engine : StorageEngine) : StorageEngine :=
  { engine with
    activeCheckpoint :=
      engine.activeCheckpoint.map fun active =>
        { active with aborted := true } }

/-- `checkpoint`. -/
def checkpoint
    (engine : StorageEngine) :
    StorageEngine × Except Thrown (Option CheckpointResult) :=
  match engine.assertOpen with
  | .error error => (engine, .error error)
  | .ok _ =>
      match engine.abortActive.beginCheckpoint with
      | (engine, .error error) => (engine, .error error)
      | (engine, .ok none) => (engine, .ok none)
      | (engine, .ok (some begun)) =>
          let (outcome, rest) := skipPauses engine.outcomes
          completeCheckpoint { engine with outcomes := rest } begun outcome

/-- One step of the loop in `checkpointAsync`; a checkpoint that ends is not
active any more, and an error rejects its promise. -/
def stepCheckpoint
    (engine : StorageEngine)
    (active : ActiveCheckpoint) : StorageEngine :=
  match engine.takeOutcome with
  | (.paused, engine) => engine
  | (outcome, engine) =>
      match engine.completeCheckpoint active.begun outcome with
      | (engine, .ok _) => { engine with activeCheckpoint := none }
      | (engine, .error error) =>
          { engine with
            activeCheckpoint := none
            rejections := engine.rejections ++ [(active.caller, error)] }

/-- `checkpointAsync`, up to where it first waits. -/
def checkpointAsync
    (engine : StorageEngine)
    (caller : CheckpointCaller) : StorageEngine × Except Thrown Unit :=
  match engine.assertOpen with
  | .error error => (engine, .error error)
  | .ok _ =>
      if engine.activeCheckpoint.isSome then
        (engine, .ok ())
      else
        match engine.beginCheckpoint with
        | (engine, .error error) => (engine, .error error)
        | (engine, .ok none) => (engine, .ok ())
        | (engine, .ok (some begun)) =>
            let active : ActiveCheckpoint := ⟨begun, false, caller⟩
            (stepCheckpoint { engine with activeCheckpoint := some active }
              active,
              .ok ())

/-- The event loop comes back to the background checkpoint. -/
def resumeCheckpoint (engine : StorageEngine) : StorageEngine :=
  match engine.activeCheckpoint with
  | none => engine
  | some active =>
      if active.aborted then
        { engine with activeCheckpoint := none }
      else
        engine.stepCheckpoint active

/-- `failed` in `runAutomaticCheckpoint`. -/
def automaticFailed
    (engine : StorageEngine)
    (error : Thrown) : StorageEngine :=
  { engine with
    checkpointFailure := some error
    nextCheckpointAt :=
      engine.bytesSinceCheckpoint + engine.settings.checkpointThresholdBytes }

/-- The handler of a rejected promise runs. -/
def handleRejection (engine : StorageEngine) : StorageEngine :=
  match engine.rejections with
  | [] => engine
  | (caller, error) :: rest =>
      let engine := { engine with rejections := rest }
      match caller with
      | .user => engine
      | .automatic => engine.automaticFailed error
      | .timer => { engine with checkpointFailure := some error }

/-- `runAutomaticCheckpoint`. -/
def runAutomaticCheckpoint (engine : StorageEngine) : StorageEngine :=
  if engine.settings.backgroundCheckpoints then
    match engine.checkpointAsync .automatic with
    | (engine, .error error) => engine.automaticFailed error
    | (engine, .ok _) => engine
  else
    match engine.checkpoint with
    | (engine, .error error) => engine.automaticFailed error
    | (engine, .ok _) => engine

/-- An automatic checkpoint is due. -/
def isDue (engine : StorageEngine) : Bool :=
  !(engine.bytesSinceCheckpoint < engine.nextCheckpointAt ||
    engine.activeCheckpoint.isSome)

/-- `runDueCheckpoint`. -/
def runDueCheckpoint (engine : StorageEngine) : StorageEngine :=
  if engine.isDue then engine.runAutomaticCheckpoint else engine

/-- The part of `append` behind the checkpoint that is due. -/
def record
    (engine : StorageEngine)
    (operations : List Operation) : StorageEngine × Except Thrown Unit :=
  match encodeOperations operations with
  | .error error => (engine, .error (tooLarge error.message))
  | .ok payload =>
      match engine.log.append transactionType payload with
      | (log, .error (.range error)) =>
          ({ engine with log := log }, .error (tooLarge (utf16 error.message)))
      | (log, .error error) =>
          ({ engine with log := log }, .error (engine.settings.thrown error))
      | (log, .ok _) =>
          ({ engine with
              log := log
              bytesSinceCheckpoint :=
                engine.bytesSinceCheckpoint + recordHeaderSize +
                  payload.length },
            .ok ())

/-- `append`. -/
def append
    (engine : StorageEngine)
    (operations : List Operation) : StorageEngine × Except Thrown Unit :=
  match engine.assertOpen with
  | .error error => (engine, .error error)
  | .ok _ => engine.runDueCheckpoint.record operations

/-- `openCollection`. -/
def openCollection
    (engine : StorageEngine)
    (database collection : JsString) : StorageEngine × Except Thrown Unit :=
  match engine.getCollection database collection with
  | some _ => (engine, .ok ())
  | none =>
      match engine.append [.createCollection database collection] with
      | (engine, .error error) => (engine, .error error)
      | (engine, .ok _) =>
          (engine.withCollection database collection .empty, .ok ())

/--
A write of a collection with the journal that `register` gives it.  While the
journal runs the collection is as the write has left it at that point.
-/
def perform
    {α : Type}
    (engine : StorageEngine)
    (database collection : JsString)
    (write : Write α) : StorageEngine × Except Thrown α :=
  match write with
  | .done final result =>
      (engine.withCollection database collection final, result)
  | .commit during operations resume =>
      let (engine, answer) :=
        (engine.withCollection database collection during).append
          (operations.map (toOperation database collection))
      let (final, result) := resume answer
      (engine.withCollection database collection final, result)

/-- `commit`. -/
def commit (engine : StorageEngine) : StorageEngine × Except Thrown Unit :=
  if engine.closed then
    (engine, .ok ())
  else
    let (log, result) := engine.log.commit
    ({ engine with log := log }, result.mapError engine.settings.thrown)

/-- The flush timer fires; an error of the flush is dropped. -/
def flushTimer (engine : StorageEngine) : StorageEngine :=
  { engine with log := engine.log.flush.1 }

/-- The checkpoint timer fires. -/
def checkpointTimer (engine : StorageEngine) : StorageEngine :=
  if engine.closed || engine.activeCheckpoint.isSome then
    engine
  else if engine.settings.backgroundCheckpoints then
    match engine.checkpointAsync .timer with
    | (engine, .error error) => { engine with checkpointFailure := some error }
    | (engine, .ok _) => engine
  else
    match engine.checkpoint with
    | (engine, .error error) => { engine with checkpointFailure := some error }
    | (engine, .ok _) => engine

/-- The checkpoint of `close`, with the error that it is left with. -/
def closingCheckpoint
    (engine : StorageEngine) : StorageEngine × Option Thrown :=
  let engine := engine.abortActive
  if engine.settings.checkpointOnClose &&
      decide ((engine.lastCheckpoint : Int) < engine.log.lastLsn) then
    match engine.checkpoint with
    | (engine, .error error) => (engine, some error)
    | (engine, .ok _) => (engine, none)
  else
    (engine, none)

/-- `close`. -/
def close (engine : StorageEngine) : StorageEngine × Except Thrown Unit :=
  if engine.closed then
    (engine, .ok ())
  else
    let (engine, failure) := engine.closingCheckpoint
    let (log, closed) := engine.log.close
    let engine := { engine with closed := true, log := log }
    match failure, closed with
    | some error, _ => (engine, .error error)
    | none, .error error => (engine, .error (engine.settings.thrown error))
    | none, .ok _ => (engine, .ok ())

end StorageEngine

end SinterDb
