import SinterDb.Engine.EngineReopening

namespace SinterDb

open Unicode
open Wal

/-!
# Runs of an engine

An engine from a new directory over any calls and restarts, with whatever the
file system does.  A restart follows a close, or finds the files as a killed
process has left them; snapshots may be damaged while the engine is not open.
-/

/-- A call of an engine, or a step that the event loop or a timer takes. -/
inductive EngineCall where
  | openCollection (database collection : JsString)
  | write (database collection : JsString) (call : WriteCall)
  | commit
  | checkpoint
  | checkpointAsync
  | resumeCheckpoint
  | handleRejection
  | flushTimer
  | checkpointTimer

namespace StorageEngine

/-- The engine after a call; a collection that was not opened cannot be
written. -/
def call (engine : StorageEngine) : EngineCall → StorageEngine
  | .openCollection database collection =>
      (engine.openCollection database collection).1
  | .write database collection call =>
      match engine.getCollection database collection with
      | none => engine
      | some store =>
          (engine.perform database collection (store.perform call)).1
  | .commit => engine.commit.1
  | .checkpoint => engine.checkpoint.1
  | .checkpointAsync => (engine.checkpointAsync .user).1
  | .resumeCheckpoint => engine.resumeCheckpoint
  | .handleRejection => engine.handleRejection
  | .flushTimer => engine.flushTimer
  | .checkpointTimer => engine.checkpointTimer

/--
What a run asks of a call.  The names are ones that the text coding restores,
an `insertMany` does not leave the indexes spoiled, and no checkpoint copies an
index whose record is then refused.
-/
def Allows (engine : StorageEngine) : EngineCall → Prop
  | .openCollection database collection =>
      IsKeptName database ∧ IsKeptName collection
  | .write database collection call =>
      call.KeepsNames ∧
        ∀ store, engine.getCollection database collection = some store →
          ¬ store.SpoiledBy call ∧
            ¬ engine.CopiesRefused database collection (store.perform call)
  | _ => True

/-- A call throws, and is not an `insertMany` that has inserted a part. -/
def Throws (engine : StorageEngine) : EngineCall → Prop
  | .openCollection database collection =>
      ∃ error, (engine.openCollection database collection).2 = .error error
  | .write database collection call =>
      ∃ store error,
        engine.getCollection database collection = some store ∧
          (engine.perform database collection (store.perform call)).2 =
            .error error ∧
          ¬ Collection.IsInsertMany error
  | _ => False

/--
The log and the snapshots that an engine leaves when it stops: closed without
an error, or killed at any point of a write while its log writes at once.  The
log is not broken; after a failed flush its last record may be there or not.
-/
inductive Stopped (engine : StorageEngine) :
    Nat → List SegmentFile → List SnapshotFile → Prop where
  | closed
      {later : StorageEngine}
      (closes : engine.close = (later, .ok ()))
      (usable : later.log.broken = false) :
      Stopped engine later.log.firstLsn later.log.files later.snapshots
  | killed
      {tail : Bytes}
      (usable : engine.log.broken = false)
      (writesAtOnce : engine.log.mode ≠ .memory)
      (torn : Remembers.TornTail engine.log tail) :
      Stopped engine engine.log.firstLsn
        (changeFile engine.log.files engine.log.activePath fun contents =>
          contents ++ tail)
        engine.snapshots

/-- Snapshots of which some were damaged. -/
abbrev Damages (before after : List SnapshotFile) : Prop :=
  List.Forall₂
    (Journal.Damages SnapshotFile.nameLsn SnapshotFile.image?) before after

/-- The engines that calls and restarts lead to from a new directory. -/
inductive Runs (damaged : Prop) : StorageEngine → Prop where
  | fresh
      {settings : EngineSettings}
      {options : WriteAheadLogOptions}
      {ioOutcomes : List IoOutcome}
      {outcomes : List FileOutcome}
      {engine : StorageEngine}
      (opens :
        openEngine settings options [] [] ioOutcomes outcomes = .ok engine) :
      Runs damaged engine
  | call
      {engine : StorageEngine}
      (runs : Runs damaged engine)
      {call : EngineCall}
      (isAllowed : engine.Allows call) :
      Runs damaged (engine.call call)
  | reopen
      {engine reopened : StorageEngine}
      (runs : Runs damaged engine)
      {firstLsn : Nat}
      {segments : List SegmentFile}
      {snapshots later : List SnapshotFile}
      (stopped : engine.Stopped firstLsn segments snapshots)
      (damages : Damages snapshots later)
      (isAllowed : damaged ∨ later = snapshots)
      {settings : EngineSettings}
      {options : WriteAheadLogOptions}
      {ioOutcomes : List IoOutcome}
      {outcomes : List FileOutcome}
      (opens :
        openEngine settings options segments later ioOutcomes outcomes =
          .ok reopened) :
      Runs damaged reopened

variable
  {damaged : Prop}
  {history : List (List Operation)}
  {engine : StorageEngine}

section Calls

/-- The databases of an engine can be opened again after a call. -/
theorem lasting_call
    (lasting : Lasting engine.databases)
    {call : EngineCall}
    (isAllowed : engine.Allows call) :
    Lasting (engine.call call).databases := by
  cases call with
  | openCollection database collection =>
      exact lasting_openCollection lasting database collection
  | write database collection call =>
      unfold StorageEngine.call
      dsimp only
      cases isThere : engine.getCollection database collection with
      | none =>
          exact lasting
      | some store =>
          exact lasting_perform lasting isThere
            (isAllowed.2 store isThere).1
  | commit =>
      have same : engine.commit.1.databases = engine.databases := by
        unfold StorageEngine.commit
        split_ifs <;> rfl
      exact same ▸ lasting
  | checkpoint =>
      exact databases_checkpoint engine ▸ lasting
  | checkpointAsync =>
      exact databases_checkpointAsync engine .user ▸ lasting
  | resumeCheckpoint =>
      have same : engine.resumeCheckpoint.databases = engine.databases := by
        unfold StorageEngine.resumeCheckpoint
        cases engine.activeCheckpoint with
        | none =>
            rfl
        | some active =>
            dsimp only
            split_ifs
            · rfl
            · exact databases_stepCheckpoint engine active
      exact same ▸ lasting
  | handleRejection =>
      have same : engine.handleRejection.databases = engine.databases := by
        unfold StorageEngine.handleRejection
        rcases engine.rejections with _ | ⟨⟨caller, error⟩, rest⟩
        · rfl
        · cases caller <;> rfl
      exact same ▸ lasting
  | flushTimer =>
      exact lasting
  | checkpointTimer =>
      have async := databases_checkpointAsync engine .timer
      have sync := databases_checkpoint engine
      have same : engine.checkpointTimer.databases = engine.databases := by
        unfold StorageEngine.checkpointTimer
        split_ifs
        · rfl
        · revert async
          generalize engine.checkpointAsync .timer = result
          intro async
          rcases result with ⟨after, error | value⟩ <;> exact async
        · revert sync
          generalize engine.checkpoint = result
          intro sync
          rcases result with ⟨after, error | value⟩ <;> exact sync
      exact same ▸ lasting

/-- A call that leaves the databases alone leaves what is kept. -/
theorem Upholds.unchanged
    {later : StorageEngine}
    (upholds :
      Upholds damaged history [] engine.databases later) :
    ∃ more, more.length ≤ 1 ∧
      Upholds damaged (history ++ more) [] later.databases later := by
  refine ⟨[], Nat.zero_le _, ?_⟩
  rw [List.append_nil]
  rcases upholds with isBroken | kept
  · exact .inl isBroken
  · rw [kept.isDatabases]
    exact .inr kept

/-- A call appends one record at most, and the engine agrees with its files
again. -/
theorem Upholds.call
    (upholds : Upholds damaged history [] engine.databases engine)
    (lasting : Lasting engine.databases)
    {call : EngineCall}
    (isAllowed : engine.Allows call) :
    ∃ more, more.length ≤ 1 ∧
      Upholds damaged (history ++ more) [] (engine.call call).databases
        (engine.call call) := by
  cases call with
  | openCollection database collection =>
      exact upholds.openCollection isAllowed.1 isAllowed.2
  | write database collection call =>
      unfold StorageEngine.call
      dsimp only
      cases isThere : engine.getCollection database collection with
      | none =>
          exact upholds.unchanged
      | some store =>
          have allowed := isAllowed.2 store isThere
          exact upholds.perform lasting isThere allowed.1 isAllowed.1
            allowed.2
  | commit =>
      exact upholds.commit.unchanged
  | checkpoint =>
      exact upholds.checkpoint.unchanged
  | checkpointAsync =>
      exact (upholds.checkpointAsync .user).unchanged
  | resumeCheckpoint =>
      exact upholds.resumeCheckpoint.unchanged
  | handleRejection =>
      exact upholds.handleRejection.unchanged
  | flushTimer =>
      exact upholds.flushTimer.unchanged
  | checkpointTimer =>
      exact upholds.checkpointTimer.unchanged

end Calls

section Stopping

variable
  {firstLsn : Nat}
  {segments : List SegmentFile}
  {snapshots later : List SnapshotFile}

/-- The files that an engine leaves hold everything that it has recorded. -/
structure Leaves
    (damaged : Prop)
    (history : List (List Operation))
    (engine : StorageEngine)
    (firstLsn : Nat)
    (segments : List SegmentFile)
    (snapshots : List SnapshotFile) : Prop where
  valid : engine.image.Valid
  replays :
    Journal.replay Image.applyRecord [] history = some engine.image
  log :
    ∃ acknowledged, List.Forall₂ Recovered.IsRecordOf acknowledged history ∧
      ∀ options : WriteAheadLogOptions, options.Accepted →
        ∀ outcomes, ∃ log,
          WriteAheadLog.openLog options segments outcomes = .ok log ∧
            RemembersInFiles log acknowledged (firstLsn - 1)
  positive : 0 < firstLsn
  keeps : SnapshotsKeep damaged history snapshots (firstLsn - 1)
  named : ∀ file ∈ snapshots, file.nameLsn ≤ history.length

/-- The checkpoint of `close` changes nothing that is kept. -/
theorem Upholds.closingCheckpoint
    {databases : JsMap JsString CollectionMap}
    (upholds : Upholds damaged history [] databases engine) :
    Upholds damaged history [] databases engine.closingCheckpoint.1 := by
  have aborted :
      Upholds damaged history [] databases engine.abortActive := by
    rcases upholds with isBroken | kept
    · exact .inl isBroken
    · exact .inr kept.abortActive.1
  have checkpointed := aborted.checkpoint
  unfold StorageEngine.closingCheckpoint
  dsimp only
  split_ifs
  · revert checkpointed
    generalize engine.abortActive.checkpoint = result
    intro checkpointed
    rcases result with ⟨after, error | value⟩ <;> exact checkpointed
  · exact aborted

/-- What a kept engine leaves when it stops. -/
theorem Upholds.leaves
    (upholds : Upholds damaged history [] engine.databases engine)
    (stopped : engine.Stopped firstLsn segments snapshots) :
    Leaves damaged history engine firstLsn segments snapshots := by
  cases stopped with
  | @killed tail usable writesAtOnce torn =>
      rcases upholds with isBroken | kept
      · rw [usable] at isBroken
        cases isBroken
      · rcases kept.records with ⟨acknowledged, remembers, recordsOf⟩
        have replays := kept.replays
        have keeps := kept.snapshots
        rw [List.append_nil] at replays keeps
        refine ⟨kept.valid, replays, ⟨acknowledged, recordsOf, ?_⟩, ?_, keeps,
          kept.named⟩
        · exact fun options accepted outcomes =>
            remembers.killed writesAtOnce torn accepted outcomes
        · rw [remembers.firstLsn]
          exact Nat.lt_of_lt_of_le Nat.zero_lt_one (Nat.le_add_right _ _)
  | @closed later closes usable =>
      have closing := upholds.closingCheckpoint
      unfold StorageEngine.close at closes
      split_ifs at closes with isClosed
      · -- An engine that agrees with its files is open.
        cases closes
        rcases upholds with isBroken | kept
        · rw [usable] at isBroken
          cases isBroken
        · rw [kept.isOpen] at isClosed
          cases isClosed
      · revert closing closes
        generalize engine.closingCheckpoint = result
        intro closing closes
        rcases result with ⟨after, failure⟩
        have stays : after.log.broken = true →
            after.log.close.1.broken = true :=
          Remembers.broken_close
        cases closesLog : after.log.close with
        | mk log written =>
        rw [closesLog] at stays
        dsimp only at closes closing
        rw [closesLog] at closes
        rcases failure with _ | error
        · rcases written with error | value
          · cases closes
          · cases closes
            rcases closing with isBroken | kept
            · have isUsable : log.broken = false := usable
              rw [stays isBroken] at isUsable
              cases isUsable
            · rcases kept.records with ⟨acknowledged, remembers, recordsOf⟩
              have sameFirst := remembers.firstLsn_close
              rw [closesLog] at sameFirst
              have replays := kept.replays
              have keeps := kept.snapshots
              rw [List.append_nil] at replays keeps
              have isImage : after.image = engine.image := by
                unfold image
                rw [kept.isDatabases]
              rw [isImage] at replays
              have valid := kept.valid
              rw [isImage] at valid
              refine ⟨valid, replays, ⟨acknowledged, recordsOf, ?_⟩, ?_, ?_,
                kept.named⟩
              · intro options accepted outcomes
                dsimp only
                rw [sameFirst]
                exact remembers.reopened accepted closesLog outcomes
              · dsimp only
                rw [sameFirst, remembers.firstLsn]
                exact Nat.lt_of_lt_of_le Nat.zero_lt_one
                  (Nat.le_add_right _ _)
              · dsimp only
                rw [sameFirst]
                exact keeps
        · rcases written with error | value <;> cases closes

/-- When no snapshot can be read and the start of the log is gone, the
directory does not open. -/
theorem openEngine_lost
    (leaves : Leaves damaged history engine firstLsn segments snapshots)
    (gone : firstLsn ≠ 1)
    (unreadable : ∀ file ∈ later, file.image? = none)
    (settings : EngineSettings)
    (options : WriteAheadLogOptions)
    (ioOutcomes : List IoOutcome)
    (outcomes : List FileOutcome)
    (reopened : StorageEngine) :
    openEngine settings options segments later ioOutcomes outcomes ≠
      .ok reopened := by
  intro opens
  unfold openEngine at opens
  cases opensLog : WriteAheadLog.openLog options segments ioOutcomes with
  | error error =>
      rw [opensLog] at opens
      cases opens
  | ok log =>
      rw [opensLog] at opens
      rcases leaves.log with ⟨acknowledged, -, opensAny⟩
      rcases opensAny options (accepted_of_openLog opensLog) ioOutcomes with
        ⟨same, opensSame, inFiles⟩
      have isSame : same = log :=
        Except.ok.inj (opensSame.symm.trans opensLog)
      subst isSame
      have isPerm := perm_newestFirst later
      have isZero : (selectBase [] (newestFirst later)).lsn = 0 := by
        rcases selectBase_image (newestFirst later) [] with
          ⟨isZero, -, -⟩ | ⟨file, member, base, -, -, reads⟩
        · exact isZero
        · rw [unreadable file (isPerm.subset member)] at reads
          cases reads
      have missing :
          ∃ error,
            checkSequence settings.root
              (selectBase [] (newestFirst later)) same = .error error := by
        unfold checkSequence
        have positive := leaves.positive
        rw [isZero, if_pos]
        · exact ⟨_, rfl⟩
        · rw [inFiles.remembers.firstLsn]
          omega
      rcases missing with ⟨error, refuses⟩
      unfold recover at opens
      dsimp only at opens
      rw [refuses] at opens
      cases opens

/-- Nothing is damaged. -/
theorem Damages.refl
    (snapshots : List SnapshotFile) :
    Damages snapshots snapshots :=
  List.forall₂_same.mpr fun _ _ => ⟨rfl, .inl rfl⟩

/-- What an engine leaves has a snapshot that can be read, or all records, when
no snapshot is too long. -/
theorem Leaves.readable
    (leaves : Leaves damaged history engine firstLsn segments snapshots)
    (short :
      ∀ file ∈ snapshots, file.bytes.length ≤ maxReadFileSize) :
    firstLsn = 1 ∨ ∃ file ∈ snapshots, file.image?.isSome = true := by
  have positive := leaves.positive
  rcases leaves.keeps.spare with nothingGone | ⟨⟨file, member, held⟩, -⟩
  · exact .inl (by omega)
  · refine .inr ⟨file, member, ?_⟩
    rw [SnapshotFile.image?_of_le (short file member)]
    exact held

/-- What an engine leaves is opened with the same databases. -/
theorem Leaves.reopens
    (leaves : Leaves damaged history engine firstLsn segments snapshots)
    (lasting : Lasting engine.databases)
    (damages : Damages snapshots later)
    (readable :
      firstLsn = 1 ∨ ∃ file ∈ later, file.image?.isSome = true)
    {options : WriteAheadLogOptions}
    (accepted : options.Accepted)
    (settings : EngineSettings)
    (ioOutcomes : List IoOutcome)
    (outcomes : List FileOutcome) :
    ∃ reopened,
      openEngine settings options segments later ioOutcomes outcomes =
          .ok reopened ∧
        reopened.image = engine.image ∧ Lasting reopened.databases ∧
        ∀ others : Prop,
          (SnapshotsKeep others history later (firstLsn - 1) →
            Kept others history [] reopened.databases reopened) := by
  rcases leaves.log with ⟨acknowledged, recordsOf, opensLog⟩
  rcases opensLog options accepted ioOutcomes with ⟨log, isLog, inFiles⟩
  have keeps : SnapshotsKeep True history later (firstLsn - 1) := by
    refine leaves.keeps.damage (fun _ _ => SnapshotFile.contents?_of_image?)
      damages (readable.imp_left ?_)
    rintro rfl
    rfl
  have named : ∀ file ∈ later, file.nameLsn ≤ history.length := by
    intro file member
    rcases Lists.exists_of_mem_right damages member with
      ⟨old, isOld, same, -⟩
    rw [same]
    exact leaves.named old isOld
  have opensAs :
      ∀ others : Prop,
        SnapshotsKeep others history later (firstLsn - 1) →
          ∃ reopened,
            recover settings log later outcomes = .ok reopened ∧
              reopened.image = engine.image ∧ Lasting reopened.databases ∧
              Kept others history [] reopened.databases reopened :=
    fun others othersKeep =>
      recover_ok settings outcomes inFiles recordsOf othersKeep
        (readable.imp_left fun isFirst => by rw [isFirst]) named lasting
        leaves.valid leaves.replays
  rcases opensAs True keeps with
    ⟨reopened, recovers, isImage, isLasting, -⟩
  refine ⟨reopened, ?_, isImage, isLasting, ?_⟩
  · unfold openEngine
    rw [isLog]
    exact recovers
  · intro others othersKeep
    rcases opensAs others othersKeep with
      ⟨other, recoversOther, -, -, kept⟩
    have same : reopened = other :=
      Except.ok.inj (recovers.symm.trans recoversOther)
    rw [same]
    exact kept

end Stopping

section Reaching

/-- A new engine agrees with its files. -/
theorem agrees_fresh
    {settings : EngineSettings}
    {options : WriteAheadLogOptions}
    {ioOutcomes : List IoOutcome}
    {outcomes : List FileOutcome}
    (opens :
      openEngine settings options [] [] ioOutcomes outcomes = .ok engine) :
    Lasting engine.databases ∧
      Upholds damaged [] [] engine.databases engine := by
  unfold openEngine at opens
  cases opensLog : WriteAheadLog.openLog options [] ioOutcomes with
  | error error =>
      rw [opensLog] at opens
      cases opens
  | ok log =>
      rw [opensLog] at opens
      have nothing : Lasting .empty := nofun
      have valid : (imageOf .empty).Valid :=
        ⟨OrderedTable.proper_nil, nofun, nofun⟩
      rcases recover_ok settings outcomes
          (remembersInFiles_of_openLog_empty opensLog) .nil .nothing
          (.inl rfl) nofun nothing valid rfl with
        ⟨other, recovers, -, lasting, kept⟩
      have same : other = engine :=
        Except.ok.inj (recovers.symm.trans opens)
      rw [← same]
      exact ⟨lasting, .inr kept⟩

/-- An engine that was opened again agrees with its files. -/
theorem agrees_reopened
    {reopened : StorageEngine}
    (lasting : Lasting engine.databases)
    (upholds : Upholds damaged history [] engine.databases engine)
    {firstLsn : Nat}
    {segments : List SegmentFile}
    {snapshots later : List SnapshotFile}
    (stopped : engine.Stopped firstLsn segments snapshots)
    (damages : Damages snapshots later)
    (isAllowed : damaged ∨ later = snapshots)
    {settings : EngineSettings}
    {options : WriteAheadLogOptions}
    {ioOutcomes : List IoOutcome}
    {outcomes : List FileOutcome}
    (opens :
      openEngine settings options segments later ioOutcomes outcomes =
        .ok reopened) :
    Lasting reopened.databases ∧
      Upholds damaged history [] reopened.databases reopened := by
  have leaves := upholds.leaves stopped
  have accepted : options.Accepted := by
    unfold openEngine at opens
    cases opensLog : WriteAheadLog.openLog options segments ioOutcomes with
    | error error =>
        rw [opensLog] at opens
        cases opens
    | ok log =>
        exact accepted_of_openLog opensLog
  have readable :
      firstLsn = 1 ∨ ∃ file ∈ later, file.image?.isSome = true := by
    by_contra lost
    rw [not_or] at lost
    refine openEngine_lost leaves lost.1 ?_ settings options ioOutcomes
      outcomes reopened opens
    intro file member
    by_contra isReadable
    exact lost.2 ⟨file, member, Option.isSome_iff_ne_none.mpr isReadable⟩
  rcases leaves.reopens lasting damages readable accepted settings ioOutcomes
      outcomes with
    ⟨other, opensOther, -, isLasting, keptAs⟩
  have same : other = reopened :=
    Except.ok.inj (opensOther.symm.trans opens)
  rw [← same]
  refine ⟨isLasting, .inr (keptAs damaged ?_)⟩
  rcases isAllowed with isDamaged | rfl
  · have isTrue : damaged = True := eq_true isDamaged
    rw [isTrue]
    refine leaves.keeps.damage (fun _ _ => SnapshotFile.contents?_of_image?)
      damages (readable.imp_left ?_)
    rintro rfl
    rfl
  · exact leaves.keeps

/-- Every engine of a run agrees with its files. -/
theorem Runs.agreesWithFiles
    (runs : Runs damaged engine) :
    Lasting engine.databases ∧
      ∃ history, Upholds damaged history [] engine.databases engine := by
  induction runs with
  | fresh opens =>
      have agrees := @agrees_fresh damaged _ _ _ _ _ opens
      exact ⟨agrees.1, [], agrees.2⟩
  | call runs isAllowed inductionHypothesis =>
      rcases inductionHypothesis with ⟨lasting, history, upholds⟩
      rcases upholds.call lasting isAllowed with ⟨more, -, later⟩
      exact ⟨lasting_call lasting isAllowed, history ++ more, later⟩
  | reopen runs stopped damages isAllowed opens inductionHypothesis =>
      rcases inductionHypothesis with ⟨lasting, history, upholds⟩
      have agrees :=
        agrees_reopened lasting upholds stopped damages isAllowed opens
      exact ⟨agrees.1, history, agrees.2⟩

end Reaching

section Sample

/-- Settings of an engine that keeps two snapshots. -/
def sampleSettings : EngineSettings :=
  { root := utf16 "data"
    errorText := fun _ => []
    checkpointThresholdBytes := 1000
    checkpointRetention := 2
    checkpointOnClose := true
    backgroundCheckpoints := false
    retains := by decide }

/-- The engine that a result holds. -/
def openedEngine
    (opened : Except OpenError StorageEngine)
    (isOpen : opened.toOption.isSome = true) : StorageEngine :=
  opened.toOption.get isOpen

/-- A result holds the engine that is taken out of it. -/
theorem eq_openedEngine
    (opened : Except OpenError StorageEngine)
    (isOpen : opened.toOption.isSome = true) :
    opened = .ok (openedEngine opened isOpen) := by
  cases opened with
  | error error =>
      cases isOpen
  | ok engine =>
      rfl

/-- The default options are accepted. -/
theorem accepted_default :
    WriteAheadLogOptions.Accepted {} := by
  unfold WriteAheadLogOptions.Accepted
  decide

/-- The engine of a new directory with a collection. -/
def sampleEngine : StorageEngine :=
  (openedEngine (openEngine sampleSettings {} [] [] [] [])
    (by decide +kernel)).call
      (.openCollection (utf16 "shop") (utf16 "orders"))

/-- The same after a document was inserted. -/
def filledEngine : StorageEngine :=
  sampleEngine.call
    (.write (utf16 "shop") (utf16 "orders")
      (.insertOne ⟨List.replicate 16 7, CustomId.length_repeated 7⟩ []))

/-- The same after a checkpoint and with another collection. -/
def keptEngine : StorageEngine :=
  (filledEngine.call .checkpoint).call
    (.openCollection (utf16 "shop") (utf16 "customers"))

/-- The engine of a new directory on a disk that is full at the first
record. -/
def fullEngine : StorageEngine :=
  openedEngine
    (openEngine sampleSettings {} [] [] [.done, .done, .diskFull 5] [])
    (by decide +kernel)

/-- The same after it has refused to open a collection. -/
def refusingEngine : StorageEngine :=
  fullEngine.call (.openCollection (utf16 "shop") (utf16 "orders"))

/-- The sample is an engine of a run. -/
theorem runs_sampleEngine :
    Runs damaged sampleEngine :=
  .call (.fresh (eq_openedEngine _ _)) ⟨by decide, by decide⟩

/-- The filled sample is an engine of a run. -/
theorem runs_filledEngine :
    Runs damaged filledEngine := by
  have notDue : sampleEngine.isDue = false := by
    decide +kernel
  refine .call runs_sampleEngine ⟨trivial, fun store _ => ⟨id, ?_⟩⟩
  rintro ⟨isDue, -⟩
  exact Bool.noConfusion (notDue.symm.trans isDue)

/-- The sample with a snapshot is an engine of a run. -/
theorem runs_keptEngine :
    Runs damaged keptEngine :=
  .call (.call runs_filledEngine (by exact True.intro))
    ⟨by decide, by decide⟩

/-- The first bytes of a record at the end of the active segment. -/
def tornFiles (log : WriteAheadLog) : List SegmentFile :=
  changeFile log.files log.activePath fun contents => contents ++ [0, 0, 0]

/-- The check that these bytes end the log. -/
def endsTorn (log : WriteAheadLog) : Bool :=
  (readSegment log.files log.activePath).all fun contents =>
    match scanRecord (contents ++ [0, 0, 0]) contents.length log.nextLsn with
    | .torn _ => true
    | _ => false

/-- A log that passes the check may be left in the middle of a record. -/
theorem stopped_of_tornFiles
    (usable : engine.log.broken = false)
    (writesAtOnce : engine.log.mode ≠ .memory)
    (checked : endsTorn engine.log = true) :
    engine.Stopped engine.log.firstLsn (tornFiles engine.log)
      engine.snapshots := by
  refine .killed usable writesAtOnce ?_
  intro contents isActive
  unfold endsTorn at checked
  rw [isActive, Option.all_some] at checked
  revert checked
  cases scanRecord (contents ++ [0, 0, 0]) contents.length
      engine.log.nextLsn with
  | torn reason =>
      intro _
      exact .inr ⟨reason, rfl⟩
  | _ =>
      intro checked
      cases checked

/-- What the sample with a snapshot leaves when it is closed. -/
theorem stopped_keptEngine :
    keptEngine.Stopped keptEngine.close.1.log.firstLsn
      keptEngine.close.1.log.files keptEngine.close.1.snapshots := by
  have succeeds : keptEngine.close.2 = .ok () := by
    decide +kernel
  have usable : keptEngine.close.1.log.broken = false := by
    decide +kernel
  revert succeeds usable
  rcases closes : keptEngine.close with ⟨later, result⟩
  intro succeeds usable
  exact .closed (closes.trans (congrArg (Prod.mk later) succeeds)) usable

end Sample

section Results

variable
  {firstLsn : Nat}
  {segments : List SegmentFile}
  {snapshots later : List SnapshotFile}
  {options : WriteAheadLogOptions}

/--
An engine that stopped is opened again with the same databases, collections,
documents and indexes in the same order, whatever the file system did to its
run; after damage this is so exactly when a snapshot can be read or the log was
never compacted.
-/
theorem Runs.reopens_iff
    (runs : Runs damaged engine)
    (stopped : engine.Stopped firstLsn segments snapshots)
    (damages : Damages snapshots later)
    (accepted : options.Accepted)
    (settings : EngineSettings)
    (ioOutcomes : List IoOutcome)
    (outcomes : List FileOutcome) :
    (∃ reopened,
      openEngine settings options segments later ioOutcomes outcomes =
          .ok reopened ∧
        reopened.image = engine.image) ↔
      firstLsn = 1 ∨ ∃ file ∈ later, file.image?.isSome = true := by
  rcases runs.agreesWithFiles with ⟨lasting, history, upholds⟩
  have leaves := upholds.leaves stopped
  constructor
  · rintro ⟨reopened, opens, -⟩
    by_contra lost
    rw [not_or] at lost
    refine openEngine_lost leaves lost.1 ?_ settings options ioOutcomes
      outcomes reopened opens
    intro file member
    by_contra isReadable
    exact lost.2 ⟨file, member, Option.isSome_iff_ne_none.mpr isReadable⟩
  · intro readable
    rcases leaves.reopens lasting damages readable accepted settings
        ioOutcomes outcomes with
      ⟨reopened, opens, isImage, -⟩
    exact ⟨reopened, opens, isImage⟩

/-- A process is killed in the middle of a record of an engine with one
document. -/
theorem Runs.reopens_iff_filledEngine :
    ∃ reopened,
      openEngine sampleSettings {} (tornFiles filledEngine.log)
          filledEngine.snapshots [] [] = .ok reopened ∧
        reopened.image = filledEngine.image :=
  (Runs.reopens_iff (@runs_filledEngine False)
    (stopped_of_tornFiles (by decide +kernel) (by decide +kernel)
      (by decide +kernel))
    (Damages.refl _) accepted_default sampleSettings [] []).mpr
    (.inl (by decide +kernel))

/--
As long as no snapshot was damaged before, any one of them may be: what an
engine leaves when it stops is opened with the same databases from another one.
-/
theorem Runs.survives_one_damage
    (runs : Runs False engine)
    (stopped : engine.Stopped firstLsn segments snapshots)
    (name : Nat)
    (damages :
      List.Forall₂
        (fun before after : SnapshotFile =>
          after = before ∨
            before.nameLsn = name ∧ after.nameLsn = name ∧
              after.image? = none)
        snapshots later)
    (short :
      ∀ file ∈ snapshots, file.nameLsn ≠ name →
        file.bytes.length ≤ maxReadFileSize)
    (accepted : options.Accepted)
    (settings : EngineSettings)
    (ioOutcomes : List IoOutcome)
    (outcomes : List FileOutcome) :
    ∃ reopened,
      openEngine settings options segments later ioOutcomes outcomes =
          .ok reopened ∧
        reopened.image = engine.image := by
  rcases runs.agreesWithFiles with ⟨lasting, history, upholds⟩
  have leaves := upholds.leaves stopped
  have isDamage : Damages snapshots later := by
    refine damages.imp fun before after isOne => ?_
    rcases isOne with rfl | ⟨isName, sameName, unreadable⟩
    · exact ⟨rfl, .inl rfl⟩
    · exact ⟨sameName.trans isName.symm, .inr unreadable⟩
  have readable :
      firstLsn = 1 ∨ ∃ file ∈ later, file.image?.isSome = true := by
    rcases leaves.keeps.spare with nothingGone | ⟨-, two⟩
    · have positive := leaves.positive
      exact .inl (by omega)
    · right
      have several : 2 ≤ snapshots.length := two.resolve_left not_false
      -- Two snapshots have different names, so that one of them is spared.
      have spared : ∃ file ∈ snapshots, file.nameLsn ≠ name := by
        by_contra none
        push Not at none
        have isConstant :
            snapshots.map SnapshotFile.nameLsn =
              List.replicate snapshots.length name := by
          rw [List.eq_replicate_iff]
          refine ⟨List.length_map _, ?_⟩
          intro other member
          rcases List.mem_map.mp member with ⟨file, isFile, rfl⟩
          exact none file isFile
        have distinct := leaves.keeps.distinct
        rw [isConstant, List.nodup_replicate] at distinct
        exact absurd several (Nat.not_le_of_lt (Nat.lt_succ_of_le distinct))
      rcases spared with ⟨file, isFile, otherName⟩
      rcases Lists.exists_of_mem_left damages isFile with
        ⟨after, isAfter, same | ⟨isName, -⟩⟩
      · subst same
        refine ⟨after, isAfter, ?_⟩
        rw [SnapshotFile.image?_of_le (short after isFile otherName)]
        rcases leaves.keeps.good after isFile with
          ⟨isDamaged, -⟩ | ⟨image, holds, -⟩
        · exact isDamaged.elim
        · rw [holds]
          rfl
      · exact absurd isName otherName
  rcases leaves.reopens lasting isDamage readable accepted settings ioOutcomes
      outcomes with
    ⟨reopened, opens, isImage, -⟩
  exact ⟨reopened, opens, isImage⟩

/-- The newest of two snapshots is emptied while the engine is closed. -/
theorem Runs.survives_one_damage_keptEngine :
    ∃ reopened,
      openEngine sampleSettings {} keptEngine.close.1.log.files
          (keptEngine.close.1.snapshots.map fun file =>
            if file.nameLsn = 3 then ⟨3, []⟩ else file)
          [] [] = .ok reopened ∧
        reopened.image = keptEngine.image := by
  refine Runs.survives_one_damage runs_keptEngine stopped_keptEngine 3
    (List.forall₂_map_right_iff.mpr (List.forall₂_same.mpr ?_))
    (by decide +kernel) accepted_default sampleSettings [] []
  intro file member
  by_cases isNewest : file.nameLsn = 3
  · rw [if_pos isNewest]
    exact .inr ⟨isNewest, rfl, by decide⟩
  · rw [if_neg isNewest]
    exact .inl rfl

/-- A write that throws leaves what is kept. -/
theorem image_perform_of_throws
    (lasting : Lasting engine.databases)
    {database collection : JsString}
    {store : Collection}
    (isThere : engine.getCollection database collection = some store)
    {call : WriteCall}
    (unspoiled : ¬ store.SpoiledBy call)
    {error : Thrown}
    (throws :
      (engine.perform database collection (store.perform call)).2 =
        .error error)
    (notBatch : ¬ Collection.IsInsertMany error) :
    (engine.perform database collection (store.perform call)).1.image =
      engine.image := by
  have atomic :=
    Collection.atomic_perform (lasting.of_getCollection isThere).toExact
      unspoiled
  have proper : OrderedTable.Proper engine.image :=
    proper_viewMaps Collection.image fun entry member =>
      (lasting entry member).1
  have putBack := putStore_same proper isThere
  revert atomic throws
  generalize store.perform call = write
  intro throws atomic
  cases write with
  | done final result =>
      have same : store.Same final :=
        (atomic (.ok ())).2 error throws notBatch
      have isImage := engine.image_withCollection database collection final
      rw [Collection.image_congr same.documents same.definitions,
        putBack] at isImage
      exact isImage
  | commit during operations resume =>
      have frame :=
        databases_append (engine.withCollection database collection during)
          (operations.map (toOperation database collection))
      unfold perform at throws ⊢
      dsimp only at throws ⊢
      revert frame throws
      generalize
        (engine.withCollection database collection during).append
          (operations.map (toOperation database collection)) = result
      intro throws frame
      rcases result with ⟨later, answer⟩
      have same := (atomic answer).2 error throws notBatch
      have isImage :
          imageOf (later.withCollection database collection
              (resume answer).1).databases =
            engine.image.putStore database collection
              (resume answer).1.image :=
        imageOf_overwrite frame
      have sameImage : (resume answer).1.image = store.image :=
        Collection.image_congr same.documents same.definitions
      rw [sameImage, putBack] at isImage
      exact isImage

end Results

end StorageEngine

end SinterDb
