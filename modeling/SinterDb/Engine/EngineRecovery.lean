import SinterDb.Engine.StorageEngine

namespace SinterDb

open Unicode
open Wal

/-!
# Recovery of the storage engine

`StorageEngine.open`: the manifest, the log, and `recover`, which starts from
the newest snapshot that can be read, replays the records behind it, and builds
the collections with their indexes.
-/

/-- `RecoveredState`. -/
structure RecoveredState where
  documents : JsMap JsString Bytes
  indexes : List IndexSpec

/-- The databases while they are recovered. -/
abbrev Recovered := JsMap JsString (JsMap JsString RecoveredState)

namespace Recovered

/-- The state of a collection, if it was created. -/
def state?
    (recovered : Recovered)
    (database collection : JsString) : Option RecoveredState :=
  (recovered.get? database).bind fun collections =>
    collections.get? collection

/-- A collection with its state. -/
def setState
    (recovered : Recovered)
    (database collection : JsString)
    (state : RecoveredState) : Recovered :=
  recovered.set database
    (((recovered.get? database).getD .empty).set collection state)

/-- The databases of a snapshot. -/
def ofCollections (collections : List RecoveredCollection) : Recovered :=
  collections.foldl
    (fun recovered entry =>
      recovered.setState entry.database entry.collection
        ⟨entry.documents, entry.indexes⟩)
    .empty

end Recovered

/-- `corrupt`. -/
def corruptRecord (root : JsString) (lsn : Nat) (reason : JsString) : Thrown :=
  corruption
    (utf16 "The write-ahead log in " ++ root ++
      utf16 s!"/wal contains an unusable record (log sequence number {lsn}): " ++
      reason ++
      utf16 (" Restore the data directory from a backup, or open it with the " ++
        "SinterDB version that wrote it."))

/-- `applyRecovered`, with the part that needs the collection to be there. -/
def applyToState
    (root : JsString)
    (lsn : Nat)
    (state : RecoveredState) : Operation → Except Thrown RecoveredState
  | .createCollection _ _ => .ok state
  | .createIndex _ _ index =>
      match state.indexes.find? fun other => other.name = index.name with
      | none => .ok { state with indexes := state.indexes ++ [index] }
      | some existing =>
          if sameDefinition existing index then
            .ok state
          else
            .error (corruptRecord root lsn
              (utf16 "It creates index \"" ++ index.name ++
                utf16 ("\" with a definition that conflicts with the " ++
                  "existing index of that name.")))
  | .dropIndex _ _ name =>
      if state.indexes.any fun other => other.name = name then
        .ok { state with
          indexes := state.indexes.eraseP fun other => other.name = name }
      else
        .error (corruptRecord root lsn
          (utf16 "It drops index \"" ++ name ++
            utf16 "\", which does not exist."))
  | .put _ _ id document =>
      .ok { state with
        documents := state.documents.set (hexString id) document }
  | .delete _ _ id =>
      .ok { state with documents := state.documents.delete (hexString id) }

/-- The database of an operation. -/
def Operation.database : Operation → JsString
  | .createCollection database _ => database
  | .put database _ _ _ => database
  | .delete database _ _ => database
  | .createIndex database _ _ => database
  | .dropIndex database _ _ => database

/-- The collection of an operation. -/
def Operation.collection : Operation → JsString
  | .createCollection _ collection => collection
  | .put _ collection _ _ => collection
  | .delete _ collection _ => collection
  | .createIndex _ collection _ => collection
  | .dropIndex _ collection _ => collection

/-- `applyRecovered`. -/
def applyRecovered
    (root : JsString)
    (lsn : Nat)
    (recovered : Recovered)
    (operation : Operation) : Except Thrown Recovered :=
  match operation, recovered.state? operation.database operation.collection with
  | .createCollection database collection, none =>
      .ok (recovered.setState database collection ⟨.empty, []⟩)
  | .createCollection _ _, some _ => .ok recovered
  | operation, none =>
      .error (corruptRecord root lsn
        (utf16 "It refers to collection \"" ++ operation.database ++
          utf16 "." ++ operation.collection ++
          utf16 "\", which was never created."))
  | operation, some state =>
      (applyToState root lsn state operation).map
        (recovered.setState operation.database operation.collection)

/-- One record in the loop of `recover`. -/
def replayRecord
    (root : JsString)
    (recovered : Recovered)
    (record : WalRecord) : Except Thrown Recovered :=
  if (record.type : Int) ≠ transactionType then
    .error (corruptRecord root record.lsn
      (utf16 (s!"It has unknown record type {record.type}. The data was " ++
        "probably written by a newer version of SinterDB.")))
  else
    match decodeOperations record.payload with
    | .error error =>
        .error (corruptRecord root record.lsn error.message)
    | .ok operations =>
        operations.foldlM (applyRecovered root record.lsn) recovered

/-- The error of a collection that cannot be built. -/
def cannotRebuild
    (root database collection : JsString) : Thrown → Thrown
  | .storage error =>
      corruption
        (utf16 "The index definitions of collections \"" ++ database ++
          utf16 "." ++ collection ++
          utf16 "\" cannot be rebuilt from its document: " ++ error.message ++
          utf16 " The data in " ++ root ++
          utf16 " is inconsistent. Restore the data directory from a backup.")
  | error => error

/-- One database in the last loop of `recover`. -/
def registerDatabase
    (root database : JsString)
    (collections : JsMap JsString RecoveredState) :
    Except Thrown CollectionMap :=
  collections.entries.foldlM
    (fun registered entry => do
      let store ←
        (Collection.create entry.2.documents entry.2.indexes).mapError
          (cannotRebuild root database entry.1)
      return registered.set entry.1 store)
    .empty

/--
The last loop of `recover`.  A database is registered with its first
collection, so that one without collections is left out.
-/
def registerAll
    (root : JsString)
    (recovered : Recovered) :
    Except Thrown (JsMap JsString CollectionMap) :=
  recovered.entries.foldlM
    (fun registered entry => do
      let collections ← registerDatabase root entry.1 entry.2
      if collections.size = 0 then
        return registered
      else
        return registered.set entry.1 collections)
    .empty

/-- The number of indexes that are built. -/
def Recovered.indexCount (recovered : Recovered) : Nat :=
  (recovered.entries.map fun database =>
    (database.2.entries.map fun collection =>
      collection.2.indexes.length).sum).sum

/-- What a record adds to the bytes since the last checkpoint. -/
def recordSize (record : WalRecord) : Nat :=
  recordHeaderSize + record.payload.length

/-- `recover`, on a new engine over an open log. -/
def recover
    (settings : EngineSettings)
    (log : WriteAheadLog)
    (snapshots : List SnapshotFile)
    (outcomes : List FileOutcome) : Except OpenError StorageEngine :=
  let selected := selectBase [] (newestFirst snapshots)
  match checkSequence settings.root selected log with
  | .error error => .error (.thrown error)
  | .ok _ =>
      let (log, read) := log.records selected.lsn
      match read with
      | .error error => .error (.log error)
      | .ok records =>
          let base :=
            Recovered.ofCollections
              ((selected.base.map ReadCheckpoint.collections).getD [])
          match records.foldlM (replayRecord settings.root) base with
          | .error error => .error (.thrown error)
          | .ok recovered =>
              match registerAll settings.root recovered with
              | .error error => .error (.thrown error)
              | .ok databases =>
                  .ok
                    { settings := settings
                      databases := databases
                      log := log
                      snapshots := snapshots
                      outcomes := outcomes
                      closed := false
                      lastCheckpoint := selected.lsn
                      bytesSinceCheckpoint :=
                        (records.map recordSize).sum
                      nextCheckpointAt := settings.checkpointThresholdBytes
                      checkpointFailure := none
                      activeCheckpoint := none
                      rejections := []
                      report :=
                        { checkpointLsn := selected.lsn
                          checkpointFile :=
                            selected.baseFile.map checkpointFileName
                          skippedCheckpoints := selected.skipped
                          replayedRecords := records.length
                          rebuiltIndexes := recovered.indexCount
                          lastLsn := log.lastLsn } }

/-- `StorageEngine.open` behind the manifest: the log is opened, and what it
and the snapshots hold is recovered. -/
def openEngine
    (settings : EngineSettings)
    (options : WriteAheadLogOptions)
    (segments : List SegmentFile)
    (snapshots : List SnapshotFile)
    (ioOutcomes : List IoOutcome)
    (outcomes : List FileOutcome) : Except OpenError StorageEngine :=
  match WriteAheadLog.openLog options segments ioOutcomes with
  | .error error => .error (.log error)
  | .ok log => recover settings log snapshots outcomes

end SinterDb
