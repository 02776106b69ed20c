import SinterDb.Inspect.Directory
import SinterDb.Inspect.OpenedLog

namespace SinterDb

open Unicode
open Wal

/-!
# The verdict of the inspection and the server

The checks on the log and the snapshots agree on every directory.  The checks
on the manifest differ in two places: a mark of an unfinished upgrade that is
not a number, and a file in the log directory that only ends like a segment.
-/

/-- The log opens and goes on where the chosen snapshot ends. -/
def LogPasses
    (options : WriteAheadLogOptions)
    (files : DataFiles)
    (start : RecoveryStart) : Prop :=
  ∃ log,
    WriteAheadLog.openLog options files.segments [] = .ok log ∧
      startRecovery files log = .ok start

/-- The manifest is usable but for a mark of an unfinished upgrade that is not
a number. -/
def DataFiles.BadMark (files : DataFiles) : Prop :=
  ∃ fields version,
    files.manifest = .object fields ∧
      fields.format = .text storageFormat ∧
      fields.formatVersion.version? = some version ∧
      version ≤ storageFormatVersion ∧
      fields.migratingFrom ≠ .absent ∧
      fields.migratingFrom.isNumber = false

/-- There is no manifest and no segment, but a file that ends like one. -/
def DataFiles.StrayLogFile (files : DataFiles) : Prop :=
  files.manifest = .missing ∧
    files.segments = [] ∧
    files.hasLogData = true

/-- The report of the snapshot that `judge` starts from. -/
def DataFiles.baseReport (files : DataFiles) : Option SnapshotReport :=
  (inspectSnapshots files).find? SnapshotReport.ok

/-- The sequence number that `judge` starts from. -/
def DataFiles.baseLsn (files : DataFiles) : Nat :=
  (files.baseReport.map SnapshotReport.lsn).getD 0

/-- Both choose the same snapshot from a list. -/
theorem selectBase_eq
    (skipped : List SkippedCheckpoint)
    (candidates : List SnapshotFile) :
    (selectBase skipped candidates).baseFile =
        ((candidates.map inspectSnapshot).find? SnapshotReport.ok).map
          SnapshotReport.lsn ∧
      (selectBase skipped candidates).lsn =
        (((candidates.map inspectSnapshot).find? SnapshotReport.ok).map
          SnapshotReport.lsn).getD 0 := by
  induction candidates generalizing skipped with
  | nil =>
      exact ⟨rfl, rfl⟩
  | cons candidate rest inductionHypothesis =>
      rw [List.map_cons, selectBase, inspectSnapshot]
      cases reads : readCheckpoint candidate.bytes with
      | error error =>
          exact inductionHypothesis _
      | ok base =>
          by_cases misnamed : base.lsn ≠ candidate.nameLsn
          · simp only [if_pos misnamed]
            exact inductionHypothesis _
          · simp only [if_neg misnamed]
            exact ⟨rfl, not_not.mp misnamed⟩

/-- The log has segments exactly if the directory has. -/
theorem inspectLog_segments (files : List SegmentFile) :
    (inspectLog files).segments = [] ↔ files = [] := by
  have sorted : (sortedFiles files).Perm files := List.perm_insertionSort _ _
  have reports :
      ∀ previous : Option SegmentReport, ∀ list : List SegmentFile,
        analyzeLoop previous list = [] ↔ list = [] := by
    intro previous list
    cases list <;> simp [analyzeLoop]
  change analyzeLoop none (sortedFiles files) = [] ↔ _
  rw [reports]
  constructor
  · intro nothing
    rw [nothing] at sorted
    exact sorted.nil_eq.symm
  · rintro rfl
    rfl

/-- The steps of this build lead from every older version to its own. -/
theorem planMigrations_build
    {version : Nat}
    (positive : 1 ≤ version) :
    ∃ steps, planMigrations version buildPlan = .ok steps := by
  unfold planMigrations buildPlan storageFormatVersion
  obtain rfl | newer : version = 1 ∨ 2 ≤ version := by omega
  · exact ⟨migrations, rfl⟩
  · rw [Nat.sub_eq_zero_of_le newer]
    exact ⟨[], rfl⟩

/-- The server accepts the mark of an unfinished upgrade. -/
theorem readInterruptedUpgrade_ok
    (path : JsString)
    (migratingFrom : ManifestField) :
    (∃ interrupted,
        readInterruptedUpgrade path storageFormatVersion migratingFrom =
          .ok interrupted) ↔
      migratingFrom = .absent ∨ isInterrupted migratingFrom = true := by
  cases migratingFrom with
  | absent =>
      simp [readInterruptedUpgrade]
  | integer value =>
      rcases value with (_ | version) | negative
      · simp [readInterruptedUpgrade, isInterrupted, ManifestField.version?]
      · by_cases older : version + 1 < storageFormatVersion
        · have accepted : ¬ storageFormatVersion ≤ version + 1 := by
            omega
          simp [readInterruptedUpgrade, isInterrupted, accepted, older,
            ManifestField.version?]
        · have refused : storageFormatVersion ≤ version + 1 := by
            omega
          simp [readInterruptedUpgrade, isInterrupted, refused, older,
            ManifestField.version?]
      · simp [readInterruptedUpgrade, isInterrupted, ManifestField.version?]
  | fraction json =>
      simp [readInterruptedUpgrade, isInterrupted, ManifestField.version?]
  | text value =>
      simp [readInterruptedUpgrade, isInterrupted, ManifestField.version?]
  | other json =>
      simp [readInterruptedUpgrade, isInterrupted, ManifestField.version?]

/-- An unfinished upgrade that the server accepts has a version. -/
theorem positive_of_interrupted
    {path : JsString}
    {target version : Nat}
    {migratingFrom : ManifestField}
    (reads :
      readInterruptedUpgrade path target migratingFrom =
        .ok (some version)) :
    1 ≤ version := by
  unfold readInterruptedUpgrade at reads
  split at reads
  · cases reads
  · split_ifs at reads with refused
    cases reads
    omega
  · cases reads

/-- The server accepts the format and the version. -/
theorem readFormatVersion_ok
    (directory : DataDirectory)
    (format formatVersion : ManifestField)
    (version : Nat) :
    readFormatVersion directory storageFormatVersion format formatVersion =
        .ok version ↔
      format = .text storageFormat ∧
        formatVersion.version? = some version ∧
        version ≤ storageFormatVersion := by
  unfold readFormatVersion
  by_cases foreign : format ≠ .text storageFormat
  · simp [foreign]
  · rw [if_neg foreign]
    simp only [not_not.mp foreign, true_and]
    cases formatVersion with
    | integer value =>
        rcases value with (_ | number) | negative
        · simp [ManifestField.version?]
        · by_cases newer : storageFormatVersion < number + 1
          · simp [ManifestField.version?, newer]
            omega
          · simp [ManifestField.version?, newer]
            omega
        · simp [ManifestField.version?]
    | absent =>
        simp [ManifestField.version?]
    | fraction json =>
        simp [ManifestField.version?]
    | text value =>
        simp [ManifestField.version?]
    | other json =>
        simp [ManifestField.version?]

/-- The server accepts a manifest exactly if its checks on the version and on
the mark of an unfinished upgrade pass. -/
theorem prepareManifest_object
    {directory : DataDirectory}
    {format formatVersion createdAt migratingFrom : ManifestField}
    (isParsed :
      directory.manifest =
        some (.parsed format formatVersion createdAt migratingFrom))
    (createdNow upgradedNow : JsString) :
    (prepareManifest buildPlan createdNow upgradedNow directory).2 = .ok () ↔
      (∃ version,
        format = .text storageFormat ∧
          formatVersion.version? = some version ∧
          version ≤ storageFormatVersion) ∧
        (migratingFrom = .absent ∨ isInterrupted migratingFrom = true) := by
  rw [← readInterruptedUpgrade_ok directory.path]
  simp only [← readFormatVersion_ok directory]
  unfold prepareManifest prepareFile
  rw [isParsed]
  simp only [readManifest, buildPlan]
  cases versions :
      readFormatVersion directory storageFormatVersion format
        formatVersion with
  | error error =>
      simp [bind, Except.bind]
  | ok version =>
      have positive : 1 ≤ version := by
        obtain ⟨_, isVersion, _⟩ :=
          (readFormatVersion_ok directory format formatVersion version).mp
            versions
        unfold ManifestField.version? at isVersion
        split at isVersion
        · cases isVersion
          omega
        · cases isVersion
      cases reads :
          readInterruptedUpgrade directory.path storageFormatVersion
            migratingFrom with
      | error error =>
          simp [bind, Except.bind]
      | ok interrupted =>
          have starts : 1 ≤ interrupted.getD version := by
            cases interrupted with
            | none =>
                exact positive
            | some start =>
                exact positive_of_interrupted reads
          obtain ⟨steps, plans⟩ := planMigrations_build starts
          unfold buildPlan at plans
          simp only [bind, Except.bind, pure, Except.pure, plans]
          split_ifs <;> simp

/-- The inspection accepts the fields of a manifest. -/
theorem inspectFields_status (parsed : RawManifest) :
    (inspectFields parsed).status ≠ .missing ∧
      ((inspectFields parsed).status = .ok ↔
        (∃ version,
          parsed.format = .text storageFormat ∧
            parsed.formatVersion.version? = some version ∧
            version ≤ storageFormatVersion) ∧
          (parsed.migratingFrom.isNumber = false ∨
            isInterrupted parsed.migratingFrom = true)) := by
  unfold inspectFields
  by_cases foreign : parsed.format ≠ .text storageFormat
  · simp [foreign]
  · rw [if_neg foreign]
    cases parsed.formatVersion.version? with
    | none =>
        simp
    | some version =>
        have isForm := not_not.mp foreign
        by_cases newer : storageFormatVersion < version
        · have tooNew : ¬ version ≤ storageFormatVersion := by
            omega
          simp [newer, tooNew]
        · have known : version ≤ storageFormatVersion := by
            omega
          simp only [if_neg newer, Option.some.injEq, exists_eq_left',
            isForm, known, true_and]
          cases isNumber : parsed.migratingFrom.isNumber with
          | false =>
              simp
          | true =>
              cases isInterrupted parsed.migratingFrom <;> simp

/-- The mark of an upgrade that was interrupted is a number. -/
theorem isNumber_of_isInterrupted
    {migratingFrom : ManifestField}
    (interrupted : isInterrupted migratingFrom = true) :
    migratingFrom.isNumber = true := by
  cases migratingFrom with
  | integer value =>
      rfl
  | fraction json =>
      rfl
  | absent =>
      cases interrupted
  | text value =>
      cases interrupted
  | other json =>
      cases interrupted

/-- The server accepts the manifest exactly if the inspection has no problem
with it, apart from the two places where they differ. -/
theorem prepareManifest_iff
    (files : DataFiles)
    (createdNow upgradedNow : JsString) :
    (prepareManifest buildPlan createdNow upgradedNow files.directory).2 =
        .ok () ↔
      manifestProblems (inspectManifest files.manifest)
          (inspectLog files.segments) = [] ∧
        ¬ files.BadMark ∧ ¬ files.StrayLogFile := by
  cases isManifest : files.manifest with
  | missing =>
      have noMark : ¬ files.BadMark := by
        rintro ⟨fields, version, isObject, _⟩
        rw [isManifest] at isObject
        cases isObject
      have hasSegments :
          files.hasLogData = false → files.segments = [] := by
        unfold DataFiles.hasLogData DataFiles.segments
        cases files.wal with
        | none =>
            simp
        | some wal =>
            simp +contextual
      unfold DataFiles.StrayLogFile
      simp only [prepareManifest, prepareFile, DataFiles.directory,
        ManifestJson.file, isManifest, manifestProblems, inspectManifest,
        inspectLog_segments, noMark, not_false_eq_true, true_and, if_true]
      cases hasLog : files.hasLogData with
      | false =>
          simp [hasSegments hasLog]
      | true =>
          by_cases none : files.segments = [] <;> simp [none]
  | invalid reason =>
      simp [prepareManifest, prepareFile, DataFiles.directory,
        ManifestJson.file, isManifest, manifestProblems, inspectManifest,
        readManifest]
  | null =>
      simp [prepareManifest, prepareFile, DataFiles.directory,
        ManifestJson.file, isManifest, manifestProblems, inspectManifest,
        readManifest]
  | primitive =>
      have isParsed :
          files.directory.manifest =
            some (.parsed .absent .absent .absent .absent) := by
        simp [DataFiles.directory, isManifest, ManifestJson.file]
      rw [prepareManifest_object isParsed]
      simp [manifestProblems, inspectManifest]
  | object fields =>
      have isParsed :
          files.directory.manifest =
            some (.parsed fields.format fields.formatVersion
              fields.createdAt fields.migratingFrom) := by
        simp [DataFiles.directory, isManifest, ManifestJson.file]
      have notStray : ¬ files.StrayLogFile := by
        rintro ⟨missing, _⟩
        rw [isManifest] at missing
        cases missing
      have isMark :
          files.BadMark ↔
            (∃ version,
              fields.format = .text storageFormat ∧
                fields.formatVersion.version? = some version ∧
                version ≤ storageFormatVersion) ∧
              fields.migratingFrom ≠ .absent ∧
              fields.migratingFrom.isNumber = false := by
        unfold DataFiles.BadMark
        rw [isManifest]
        simp only [ManifestJson.object.injEq, exists_and_left]
        constructor
        · rintro ⟨_, rfl, isFormat, version, isVersion, known, mark⟩
          exact ⟨⟨isFormat, version, isVersion, known⟩, mark⟩
        · rintro ⟨⟨isFormat, version, isVersion, known⟩, mark⟩
          exact ⟨fields, rfl, isFormat, version, isVersion, known, mark⟩
      obtain ⟨notMissing, isOk⟩ := inspectFields_status fields
      have noProblems :
          manifestProblems (inspectFields fields)
              (inspectLog files.segments) = [] ↔
            (inspectFields fields).status = .ok := by
        unfold manifestProblems
        rw [if_neg notMissing]
        split_ifs with notOk
        · simpa using notOk
        · simpa using notOk
      have number := @isNumber_of_isInterrupted fields.migratingFrom
      rw [prepareManifest_object isParsed, inspectManifest, noProblems, isOk,
        isMark]
      constructor
      · rintro ⟨usable, absent | interrupted⟩
        · refine ⟨⟨usable, .inl (by rw [absent]; rfl)⟩, ?_, notStray⟩
          rintro ⟨_, present, _⟩
          exact present absent
        · refine ⟨⟨usable, .inr interrupted⟩, ?_, notStray⟩
          rintro ⟨_, _, notNumber⟩
          rw [number interrupted] at notNumber
          cases notNumber
      · rintro ⟨⟨usable, notNumber | interrupted⟩, noMark, _⟩
        · refine ⟨usable, .inl (not_not.mp fun present => ?_)⟩
          exact noMark ⟨usable, present, notNumber⟩
        · exact ⟨usable, .inr interrupted⟩

/-- Where recovery starts on an open log, if its numbers fit. -/
theorem startRecovery_iff
    {log : WriteAheadLog}
    {held : List SegmentFile}
    (opened : OpenOn log held)
    (files : DataFiles)
    (start : RecoveryStart) :
    startRecovery files log = .ok start ↔
      log.firstLsn ≤ files.baseLsn + 1 ∧
        (files.baseLsn : Int) ≤ log.lastLsn ∧
        start.baseFile = files.baseReport.map SnapshotReport.lsn ∧
        start.baseLsn = files.baseLsn ∧
        (log.records files.baseLsn).2 = .ok start.replayed := by
  have isBase := selectBase_eq [] files.listCheckpoints
  have isLsn :
      (selectBase [] files.listCheckpoints).lsn = files.baseLsn :=
    isBase.2
  have isFile :
      (selectBase [] files.listCheckpoints).baseFile =
        files.baseReport.map SnapshotReport.lsn :=
    isBase.1
  obtain ⟨yielded, yields, _⟩ := opened.yields files.baseLsn
  unfold startRecovery checkSequence
  simp only [isLsn, isFile, yields]
  by_cases compacted : files.baseLsn + 1 < log.firstLsn
  · rw [if_pos compacted]
    simp only [reduceCtorEq, false_iff]
    omega
  · rw [if_neg compacted]
    by_cases lost : log.lastLsn < files.baseLsn
    · rw [if_pos lost]
      simp only [reduceCtorEq, false_iff]
      omega
    · rw [if_neg lost]
      obtain ⟨baseFile, baseLsn, replayed⟩ := start
      simp only [Except.ok.injEq, RecoveryStart.mk.injEq]
      constructor
      · rintro ⟨rfl, rfl, rfl⟩
        exact ⟨by omega, by omega, rfl, rfl, rfl⟩
      · rintro ⟨_, _, rfl, rfl, rfl⟩
        exact ⟨rfl, rfl, rfl⟩

/-- What the inspection says about the log, when it has no problem with it. -/
structure LogVerdict
    (options : WriteAheadLogOptions)
    (files : DataFiles) : Prop where
  passes :
    logProblems files.root (inspectSnapshots files) files.baseReport
        (inspectLog files.segments) = [] ↔
      ∃ start, LogPasses options files start
  same :
    ∀ start, LogPasses options files start →
      start.baseFile = files.baseReport.map SnapshotReport.lsn ∧
        start.baseLsn = files.baseLsn ∧
        (start.replayed.length : Int) =
          (inspectLog files.segments).lastLsn - files.baseLsn

/-- The inspection has no problem with an undamaged log exactly if the server
has none. -/
theorem logVerdict_of_openOn
    {options : WriteAheadLogOptions}
    {files : DataFiles}
    {log : WriteAheadLog}
    {held : List SegmentFile}
    (undamaged : (inspectLog files.segments).damage = none)
    (sums : (inspectLog files.segments).SumsUp held)
    (isOpen : WriteAheadLog.openLog options files.segments [] = .ok log)
    (opened : OpenOn log held) :
    LogVerdict options files := by
  obtain ⟨firstLsn, lastLsn, records⟩ := opened.sameNumbers sums
  obtain ⟨yielded, yields, count, next⟩ := opened.yields files.baseLsn
  have passes :
      ∀ start,
        LogPasses options files start ↔
          startRecovery files log = .ok start := by
    intro start
    unfold LogPasses
    rw [isOpen]
    simp
  constructor
  · simp only [passes, startRecovery_iff opened]
    unfold logProblems
    rw [undamaged]
    simp only [firstLsn, lastLsn, List.append_eq_nil_iff]
    change (if files.baseLsn + 1 < log.firstLsn then _ else _) = [] ∧
      (if log.lastLsn < files.baseLsn then _ else _) = [] ↔ _
    constructor
    · rintro ⟨notCompacted, notLost⟩
      split_ifs at notCompacted with compacted
      split_ifs at notLost with lost
      exact ⟨⟨_, _, yielded⟩, by omega, by omega, rfl, rfl, yields⟩
    · rintro ⟨start, notCompacted, notLost, _⟩
      rw [if_neg (by omega), if_neg (by omega)]
      exact ⟨rfl, rfl⟩
  · intro start passed
    obtain ⟨notCompacted, notLost, isFile, isLsn, replayed⟩ :=
      (startRecovery_iff opened files start).mp ((passes start).mp passed)
    refine ⟨isFile, isLsn, ?_⟩
    obtain rfl := Except.ok.inj (yields.symm.trans replayed)
    rw [count, lastLsn]
    unfold WriteAheadLog.lastLsn at notLost ⊢
    omega

/-- The inspection and the server agree on the log and the snapshots. -/
theorem logVerdict
    {options : WriteAheadLogOptions}
    (accepted : options.Accepted)
    (files : DataFiles) :
    LogVerdict options files := by
  cases openingVerdict accepted files.distinct_segments with
  | damaged damage lsn isDamage throws =>
      have fails : ∀ start, ¬ LogPasses options files start := by
        rintro start ⟨log, isOpen, _⟩
        rw [throws] at isOpen
        cases isOpen
      refine ⟨?_, fun start passed => absurd passed (fails start)⟩
      unfold logProblems
      rw [isDamage]
      simp [fails]
  | created undamaged sums opens =>
      obtain ⟨log, isOpen, _⟩ := openLog_empty accepted
      exact logVerdict_of_openOn undamaged sums ((opens []).trans isOpen)
        (openOn_created (keeps_of_openLog_empty isOpen).1)
  | reopened held undamaged sums opens =>
      obtain ⟨log, isOpen, opened⟩ := opens []
      exact logVerdict_of_openOn undamaged sums isOpen opened

/-- The verdict of the inspection is what the server does. -/
structure VerdictHolds
    (options : WriteAheadLogOptions)
    (createdNow upgradedNow : JsString)
    (files : DataFiles) : Prop where
  recoverable :
    (inspectDataDirectory files).recovery.recoverable = true ↔
      ∃ start,
        openDirectory buildPlan options createdNow upgradedNow files =
          .ok start
  start :
    ∀ start,
      openDirectory buildPlan options createdNow upgradedNow files =
          .ok start →
        (inspectDataDirectory files).recovery.baseSnapshot =
            start.baseFile ∧
          (inspectDataDirectory files).recovery.baseLsn = start.baseLsn ∧
          (inspectDataDirectory files).recovery.recordsToReplay =
            start.replayed.length

/-- A directory opens exactly if the manifest and the log pass. -/
theorem openDirectory_iff
    (options : WriteAheadLogOptions)
    (createdNow upgradedNow : JsString)
    (files : DataFiles)
    (start : RecoveryStart) :
    openDirectory buildPlan options createdNow upgradedNow files =
        .ok start ↔
      (prepareManifest buildPlan createdNow upgradedNow files.directory).2 =
          .ok () ∧
        LogPasses options files start := by
  unfold openDirectory LogPasses
  cases (prepareManifest buildPlan createdNow upgradedNow
      files.directory).2 with
  | error error =>
      simp
  | ok done =>
      cases WriteAheadLog.openLog options files.segments [] with
      | error error =>
          simp
      | ok log =>
          simp

/-- The inspection has no problem with the manifests that only the server
refuses. -/
theorem manifestProblems_refused
    {files : DataFiles}
    (refused : files.BadMark ∨ files.StrayLogFile) :
    manifestProblems (inspectManifest files.manifest)
      (inspectLog files.segments) = [] := by
  rcases refused with
    ⟨fields, version, isObject, isFormat, isVersion, known, _, notNumber⟩ |
      ⟨missing, noSegments, _⟩
  · have isOk :=
      (inspectFields_status fields).2.mpr
        ⟨⟨version, isFormat, isVersion, known⟩, .inl notNumber⟩
    rw [isObject]
    simp [manifestProblems, inspectManifest, isOk]
  · rw [missing, noSegments]
    rfl

/-- The inspection counts the records that recovery replays. -/
theorem recordsToReplay_eq
    {options : WriteAheadLogOptions}
    {files : DataFiles}
    (verdict : LogVerdict options files)
    {start : RecoveryStart}
    (passes : LogPasses options files start)
    (isRecoverable :
      (inspectDataDirectory files).recovery.recoverable = true) :
    (inspectDataDirectory files).recovery.recordsToReplay =
      start.replayed.length := by
  have count := (verdict.same start passes).2.2
  unfold DataFiles.baseLsn DataFiles.baseReport at count
  simp only [inspectDataDirectory, judge] at isRecoverable ⊢
  split_ifs with more
  · exact count.symm
  · have notMore := not_and.mp more isRecoverable
    omega

/--
The verdict is right exactly unless the log and the snapshots pass and the
manifest is one of those that only the server refuses.
-/
theorem verdictHolds_iff
    (options : WriteAheadLogOptions)
    (accepted : options.Accepted)
    (createdNow upgradedNow : JsString)
    (files : DataFiles) :
    VerdictHolds options createdNow upgradedNow files ↔
      ¬ ((files.BadMark ∨ files.StrayLogFile) ∧
        ∃ start, LogPasses options files start) := by
  have verdict := logVerdict accepted files
  have isRecoverable :
      (inspectDataDirectory files).recovery.recoverable = true ↔
        manifestProblems (inspectManifest files.manifest)
            (inspectLog files.segments) = [] ∧
          ∃ start, LogPasses options files start := by
    rw [← verdict.passes]
    simp only [inspectDataDirectory, judge, List.isEmpty_iff,
      List.append_eq_nil_iff]
    rfl
  have opens := openDirectory_iff options createdNow upgradedNow files
  have manifest := prepareManifest_iff files createdNow upgradedNow
  constructor
  · rintro ⟨same, _⟩ ⟨refused, start, passes⟩
    obtain ⟨opened, isOpen⟩ :=
      same.mp
        (isRecoverable.mpr
          ⟨manifestProblems_refused refused, start, passes⟩)
    obtain ⟨_, noMark, noStray⟩ := manifest.mp ((opens opened).mp isOpen).1
    exact refused.elim noMark noStray
  · intro notRefused
    have same :
        (inspectDataDirectory files).recovery.recoverable = true ↔
          ∃ start,
            openDirectory buildPlan options createdNow upgradedNow files =
              .ok start := by
      rw [isRecoverable]
      constructor
      · rintro ⟨noProblems, start, passes⟩
        refine ⟨start, (opens start).mpr ⟨manifest.mpr ?_, passes⟩⟩
        exact ⟨noProblems,
          fun mark => notRefused ⟨.inl mark, start, passes⟩,
          fun stray => notRefused ⟨.inr stray, start, passes⟩⟩
      · rintro ⟨start, isOpen⟩
        obtain ⟨isManifest, passes⟩ := (opens start).mp isOpen
        exact ⟨(manifest.mp isManifest).1, start, passes⟩
    refine ⟨same, ?_⟩
    intro start isOpen
    have passes := ((opens start).mp isOpen).2
    obtain ⟨isFile, isLsn, _⟩ := verdict.same start passes
    exact ⟨isFile.symm, isLsn.symm,
      recordsToReplay_eq verdict passes (same.mpr ⟨start, isOpen⟩)⟩

/-- The options of a log with every default are accepted. -/
theorem accepted_default : WriteAheadLogOptions.Accepted {} := by
  unfold WriteAheadLogOptions.Accepted
  decide

/-- A new directory whose manifest has an empty mark of an upgrade. -/
def nullMarkDirectory : DataFiles where
  root := utf16 "data"
  manifest :=
    .object
      ⟨.text storageFormat, .integer 2, .absent, .absent,
        .other (utf16 "null")⟩
  snapshots := []
  wal := none

/-- The server starts on an empty directory with the manifest of this build,
and the verdict says so. -/
theorem verdictHolds_iff_fresh :
    VerdictHolds {} (utf16 "") (utf16 "")
      { nullMarkDirectory with
        manifest :=
          .object
            ⟨.text storageFormat, .integer 2, .absent, .absent, .absent⟩ } := by
  refine (verdictHolds_iff {} accepted_default _ _ _).mpr ?_
  rintro ⟨⟨fields, version, isObject, _, _, _, present, _⟩ |
    ⟨missing, _⟩, _⟩
  · cases isObject
    exact present rfl
  · cases missing

/-- The verdict is wrong on a manifest with an empty mark of an upgrade: it
calls the directory recoverable, and the server refuses it. -/
theorem not_verdictHolds_nullMark :
    (inspectDataDirectory nullMarkDirectory).recovery.recoverable = true ∧
      openDirectory buildPlan {} (utf16 "") (utf16 "") nullMarkDirectory =
        .error (.thrown (corruption
          (utf16 ("The manifest data/manifest.json records an upgrade from " ++
            "an invalid version.")))) ∧
      ¬ VerdictHolds {} (utf16 "") (utf16 "") nullMarkDirectory := by
  have recoverable :
      (inspectDataDirectory nullMarkDirectory).recovery.recoverable =
        true := by
    decide +kernel
  have refuses :
      openDirectory buildPlan {} (utf16 "") (utf16 "") nullMarkDirectory =
        .error (.thrown (corruption
          (utf16 ("The manifest data/manifest.json records an upgrade from " ++
            "an invalid version.")))) := by
    decide +kernel
  refine ⟨recoverable, refuses, ?_⟩
  intro holds
  obtain ⟨start, opens⟩ := holds.recoverable.mp recoverable
  rw [refuses] at opens
  cases opens

end SinterDb
