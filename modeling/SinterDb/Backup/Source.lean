import SinterDb.Backup.Backup
import SinterDb.Backup.LockTaken

namespace SinterDb.Backup

open Unicode
open Effect
open FileProgram

/-!
# What a backup does to its source

Everything that is written or removed is at or below the temporary directory,
apart from the lock.  So the source is left alone exactly when none of its files
is there.  Both are real paths: the files of the source are the ones that the
paths below it lead to, and the temporary directory is where the path of the
destination leads, which the test for nested directories does not see.
-/

section

variable (platform : Platform) (faults : Faults JsString)
variable {temporary destination published source target other : Path}
variable {kind : Option Bytes}

/-- What is below a path is not above what the path is not above. -/
theorem not_prefix_below
    (outside : ¬ temporary <+: other)
    (rest : Path) :
    ¬ temporary ++ rest <+: other :=
  fun below => outside ((List.prefix_append temporary rest).trans below)

/-- The temporary file of a file in a directory is in that directory. -/
theorem withSuffix_append
    (directory : Path)
    (name suffix : JsString) :
    withSuffix (directory ++ [name]) suffix = directory ++ [name ++ suffix] := by
  simp [withSuffix]

theorem keeps_copyFile (outside : ¬ target <+: other) :
    Keeps (OnRoot (Stands other kind))
      (copyFile platform faults source target) := by
  refine (keeps_mkdirSync faults _).bind fun _ => ?_
  refine (keeps_reading faults _ _ _).bind fun _ => ?_
  refine (keeps_openForWriting faults outside).bind fun _ => ?_
  refine (keeps_reading faults _ _ _).bind fun bytes => ?_
  refine (keeps_writeBytes faults outside bytes).bind fun _ => ?_
  refine (keeps_syncPath faults _ _).bind fun _ => ?_
  exact keeps_pure _

theorem keeps_copyFiles
    (outside : ¬ temporary <+: other)
    (paths : List Path) :
    Keeps (OnRoot (Stands other kind))
      (copyFiles platform faults source temporary paths) := by
  induction paths with
  | nil =>
      exact keeps_pure _
  | cons path paths ih =>
      have below := not_prefix_below outside path
      refine (keeps_copyFile platform faults below).bind fun copied => ?_
      exact ih.bind fun rest => keeps_pure _

theorem keeps_writeFileAtomic
    (outside : ¬ temporary <+: other)
    (name : JsString)
    (contents : Bytes) :
    Keeps (OnRoot (Stands other kind))
      (writeFileAtomic faults temporary (temporary ++ [name]) contents) := by
  have file := not_prefix_below outside [name]
  have unfinished := not_prefix_below outside [name ++ utf16 ".tmp"]
  have distinct : ∀ {path : Path}, ¬ path <+: other → path ≠ other := by
    rintro path outside rfl
    exact outside (List.prefix_refl _)
  unfold writeFileAtomic
  rw [withSuffix_append]
  have written :
      Keeps (OnRoot (Stands other kind))
        (do
          openForWriting faults (temporary ++ [name ++ utf16 ".tmp"])
          writeBytes faults (temporary ++ [name ++ utf16 ".tmp"]) contents
          syncPath faults (temporary ++ [name ++ utf16 ".tmp"])
          renameSync faults (temporary ++ [name ++ utf16 ".tmp"])
            (temporary ++ [name]) : BackupProgram Unit) := by
    refine (keeps_openForWriting faults unfinished).bind fun _ => ?_
    refine (keeps_writeBytes faults unfinished contents).bind fun _ => ?_
    refine (keeps_syncPath faults _ _).bind fun _ => ?_
    exact keeps_renameSync faults unfinished (distinct file)
  refine (written.orCatch fun error => ?_).bind fun _ =>
    keeps_syncPath faults _ _
  exact (keeps_unlinkSync faults (distinct unfinished)).quietly.bind
    fun _ => keeps_throw _

theorem keeps_publish
    (outside : ¬ temporary <+: other)
    (distinct : destination ≠ other) :
    Keeps (OnRoot (Stands other kind))
      (publish faults temporary destination) := by
  have moved :
      Keeps (OnRoot (Stands other kind))
        (do
          renameSync faults temporary destination
          syncPath faults destination.dropLast : BackupProgram Unit) :=
    (keeps_renameSync faults outside distinct).bind fun _ =>
      keeps_syncPath faults _ _
  refine (keeps_mkdirSync faults _).bind fun _ => ?_
  refine (keeps_asking _ _).bind fun found => ?_
  cases found with
  | false =>
      exact moved
  | true =>
      exact (keeps_rmdirSync faults distinct).bind fun _ => moved

theorem keeps_cleanUp
    {Value : Type}
    (outside : ¬ temporary <+: other)
    (error : FileFailure BackupError) :
    Keeps (OnRoot (Stands other kind))
      (cleanUp faults temporary error : BackupProgram Value) :=
  (keeps_rmSync faults outside).bind fun _ => keeps_throw error

theorem keeps_buildBackup
    (now : JsString)
    (outside : ¬ temporary <+: other)
    (distinct : published ≠ other) :
    Keeps (OnRoot (Stands other kind))
      (buildBackup platform faults now source destination published
        temporary) := by
  refine (keeps_rmSync faults outside).bind fun _ => ?_
  refine (keeps_mkdirSync faults _).bind fun _ => ?_
  refine (keeps_reading faults _ _ _).bind fun paths => ?_
  refine (keeps_copyFiles platform faults outside paths).bind fun copied => ?_
  refine (keeps_writeFileAtomic faults outside _ _).bind fun _ => ?_
  refine (keeps_syncPath faults _ _).bind fun _ => ?_
  exact (keeps_publish faults outside distinct).bind fun _ => keeps_pure _

/-- The engine works in its directory. -/
theorem keeps_engineStep
    (outside : ¬ temporary <+: other)
    (step : EngineStep) :
    Keeps (OnRoot (Stands other kind)) (step.run faults temporary) := by
  have distinct : ∀ rest : Path, temporary ++ rest ≠ other := by
    rintro rest rfl
    exact outside (List.prefix_append _ _)
  cases step with
  | mkdir path =>
      exact keeps_mkdirOne faults _
  | write path bytes =>
      have below := not_prefix_below outside path
      exact (keeps_openForWriting faults below).bind fun _ =>
        keeps_writeBytes faults below bytes
  | append path bytes =>
      exact keeps_writeBytes faults (not_prefix_below outside path) bytes
  | unlink path =>
      exact keeps_unlinkSync faults (distinct path)
  | rename first second =>
      exact keeps_renameSync faults (not_prefix_below outside first)
        (distinct second)

theorem keeps_openEngine
    {Report : Type}
    (engine : Engine Report)
    (outside : ¬ temporary <+: other) :
    Keeps (OnRoot (Stands other kind))
      (openEngine faults engine temporary) := by
  refine (keeps_asking _ _).bind fun steps => ?_
  refine (Keeps.forEach steps fun step _ =>
    keeps_engineStep faults outside step).bind fun _ => ?_
  refine (keeps_asking _ _).bind fun report => ?_
  cases report with
  | none =>
      exact keeps_throw _
  | some report =>
      exact keeps_pure report

theorem keeps_restoreFile
    {entry : BackupFileEntry}
    (safe : above ∉ splitNames entry.path)
    (outside : ¬ temporary <+: other) :
    Keeps (OnRoot (Stands other kind))
      (restoreFile platform faults source temporary entry) := by
  have below : temporary <+: join temporary entry.path :=
    prefix_join temporary fun found => safe (above_mem_splitNames found)
  have beside : ¬ join temporary entry.path <+: other :=
    fun further => outside (below.trans further)
  refine (keeps_copyFile platform faults beside).bind fun copied => ?_
  split
  · exact keeps_throw _
  · exact keeps_pure ()

theorem keeps_buildRestore
    {Report : Type}
    (engine : Engine Report)
    (summary : BackupSummary)
    {manifest : BackupManifest}
    (safe : ∀ entry ∈ manifest.files, above ∉ splitNames entry.path)
    (outside : ¬ temporary <+: other)
    (distinct : published ≠ other) :
    Keeps (OnRoot (Stands other kind))
      (buildRestore platform faults engine summary manifest source destination
        published temporary) := by
  refine (keeps_rmSync faults outside).bind fun _ => ?_
  refine (keeps_mkdirSync faults _).bind fun _ => ?_
  refine (Keeps.forEach manifest.files fun entry member =>
    keeps_restoreFile platform faults (safe entry member) outside).bind
      fun _ => ?_
  refine ((keeps_openEngine faults engine outside).orCatch fun _ =>
    keeps_throw _).bind fun recovery => ?_
  refine (keeps_syncPath faults _ _).bind fun _ => ?_
  exact (keeps_publish faults outside distinct).bind fun _ => keeps_pure _

/-- The temporary directory is not left behind. -/
def IsGone (path : Path) (state : FileState JsString) : Prop :=
  state.root.get path = none

/-- What was published is no longer where it was built. -/
theorem meets_publish_gone
    (below : temporary ≠ [])
    (beside : ¬ destination <+: temporary) :
    Meets (fun _ => True) (publish faults temporary destination)
      (fun _ => IsGone temporary) (fun _ _ => True) := by
  have moved :
      Meets (fun _ => True)
        (do
          renameSync faults temporary destination
          syncPath faults destination.dropLast : BackupProgram Unit)
        (fun _ => IsGone temporary) (fun _ _ => True) := by
    refine Meets.bind (meets_renameSync_missing faults below beside)
      fun _ => ?_
    exact Meets.mono (keeps_syncPath faults _ _) (fun _ => id)
      (fun _ _ => id) fun _ _ _ => trivial
  refine Meets.bind (meets_any _) fun _ => ?_
  refine Meets.bind (meets_any _) fun found => ?_
  cases found with
  | false =>
      exact moved
  | true =>
      exact Meets.bind (meets_any _) fun _ => moved

/-- What was not published is removed. -/
theorem meets_orCatch_cleanUp
    {Value : Type}
    {build : BackupProgram Value}
    (built :
      Meets (fun _ => True) build (fun _ => IsGone temporary)
        fun _ _ => True)
    (free : ∀ count, faults count (.remove temporary) = none)
    (below : temporary ≠ []) :
    Meets (fun _ => True) (build.orCatch (cleanUp faults temporary))
      (fun _ => IsGone temporary) (fun _ => IsGone temporary) := by
  refine built.orCatch fun error => ?_
  refine (returns_rmSync faults free below).bind fun _ => ?_
  exact meets_throw fun _ gone => gone

theorem meets_buildBackup_gone
    (now : JsString)
    (source destination : Path)
    (below : temporary ≠ [])
    (beside : ¬ published <+: temporary) :
    Meets (fun _ => True)
      (buildBackup platform faults now source destination published temporary)
      (fun _ => IsGone temporary) (fun _ _ => True) := by
  refine Meets.bind (meets_any _) fun _ => ?_
  refine Meets.bind (meets_any _) fun _ => ?_
  refine Meets.bind (meets_any _) fun paths => ?_
  refine Meets.bind (meets_any _) fun copied => ?_
  refine Meets.bind (meets_any _) fun _ => ?_
  refine Meets.bind (meets_any _) fun _ => ?_
  refine (meets_publish_gone faults below beside).bind fun _ => ?_
  exact meets_pure fun _ gone => gone

theorem meets_buildRestore_gone
    {Report : Type}
    (source destination : Path)
    (engine : Engine Report)
    (summary : BackupSummary)
    (manifest : BackupManifest)
    (below : temporary ≠ [])
    (beside : ¬ published <+: temporary) :
    Meets (fun _ => True)
      (buildRestore platform faults engine summary manifest source destination
        published temporary)
      (fun _ => IsGone temporary) (fun _ _ => True) := by
  refine Meets.bind (meets_any _) fun _ => ?_
  refine Meets.bind (meets_any _) fun _ => ?_
  refine Meets.bind (meets_any _) fun _ => ?_
  refine Meets.bind (meets_any _) fun recovery => ?_
  refine Meets.bind (meets_any _) fun _ => ?_
  refine (meets_publish_gone faults below beside).bind fun _ => ?_
  exact meets_pure fun _ gone => gone

end

/-- The files with a property stay as they are. -/
def LeavesFiles
    (kept : Path → Prop)
    (before after : FileTree JsString) : Prop :=
  ∀ path bytes, kept path → before.get path = some (.file bytes) →
    after.get path = some (.file bytes)

/-- The real paths that the paths below a directory lead to. -/
def IsUnder (root : FileTree JsString) (directory path : Path) : Prop :=
  ∃ rest, root.real (directory ++ rest) = some path

/-- The files of a data directory that a backup has to leave alone. -/
def IsSourceFile (root : FileTree JsString) (directory path : Path) : Prop :=
  IsUnder root directory path ∧
    ∀ locked, root.real directory = some locked → ¬ IsLockFile locked path

/-- `createBackup` leaves the data directory alone, whatever fails. -/
def BackupLeavesSource
    (platform : Platform)
    (caller : Caller)
    (cwd : Path)
    (options : BackupOptions)
    (root : FileTree JsString) : Prop :=
  ∀ faults,
    LeavesFiles (IsSourceFile root (resolve cwd options.dataDirectory)) root
      (createBackup platform faults caller cwd options ⟨root, 0⟩).2.root

/-- `restoreBackup` leaves the backup alone, whatever fails. -/
def RestoreLeavesSource
    {Report : Type}
    (platform : Platform)
    (engine : Engine Report)
    (cwd : Path)
    (options : RestoreOptions)
    (root : FileTree JsString) : Prop :=
  ∀ faults,
    LeavesFiles (IsUnder root (resolve cwd options.backupDirectory)) root
      (restoreBackup platform faults engine cwd options ⟨root, 0⟩).2.root

/--
The backup goes on to build in a directory that has a file of the source: the
checks pass, nothing is in the way of the lock, and the file is where the
backup is to be built.  The checks are about the paths of the caller; the lock
and the file are where these lead.
-/
structure BackupOverlap
    (platform : Platform)
    (caller : Caller)
    (source destination : Path)
    (locked published : Path)
    (root : FileTree JsString) : Prop where
  apart : nested source destination = false
  data : assertDataDirectory platform source root = .ok ()
  empty : assertEmptyOrMissing destination .backup root = .ok ()
  source_leads : root.real source = some locked
  destination_leads : root.place destination = some published
  lock_free : ¬ Stands (lockPath locked) none root
  private_free : ¬ Stands (privatePath caller locked) none root
  file :
    ∃ path bytes,
      IsSourceFile root source path ∧ partialPath published <+: path ∧
        root.get path = some (.file bytes)

/-- The same for a restore. -/
structure RestoreOverlap
    (platform : Platform)
    (source destination published : Path)
    (root : FileTree JsString) : Prop where
  apart : nested source destination = false
  accepted : ∃ summary, verifyBackup platform source root = .ok summary
  empty : assertEmptyOrMissing destination .dataDirectory root = .ok ()
  destination_leads : root.place destination = some published
  file :
    ∃ path bytes,
      IsUnder root source path ∧ restoringPath published <+: path ∧
        root.get path = some (.file bytes)

section

variable (platform : Platform) (faults : Faults JsString)
variable {source destination locked published : Path}
variable {root : FileTree JsString}

/-- What the checks of a backup found out. -/
structure BackupChecked
    (source destination : Path)
    (root : FileTree JsString) : Prop where
  apart : nested source destination = false
  data : assertDataDirectory platform source root = .ok ()
  empty : assertEmptyOrMissing destination .backup root = .ok ()

/-- A check that looks at no files. -/
theorem meets_check
    (result : Except (FileFailure BackupError) Unit)
    (before : FileState JsString → Prop) :
    Meets before (check result)
      (fun _ state => result = .ok () ∧ before state) (fun _ => before) := by
  cases result with
  | error error =>
      exact fun _ holds => holds
  | ok _ =>
      exact fun _ holds => ⟨rfl, holds⟩

/-- Directories that pass the test are not nested. -/
theorem not_nested_of_ok
    (accepted : assertNotNested source destination = .ok ()) :
    nested source destination = false := by
  unfold assertNotNested at accepted
  exact Bool.not_eq_true _ ▸ (Result.else_of_ok accepted).1

/-- What is read of one tree. -/
theorem meets_reading_root
    {Value : Type}
    (label : FileCall JsString)
    (look : FileTree JsString → Except (FileFailure BackupError) Value) :
    Meets (OnRoot fun tree => tree = root) (reading faults label look)
      (fun value state =>
        look root = .ok value ∧ OnRoot (fun tree => tree = root) state)
      (fun _ => OnRoot fun tree => tree = root) := by
  refine meets_reading ?_
  rintro tree value rfl done
  exact done

/-- The checks look at the tree and leave it. -/
theorem meets_checkBackup :
    Meets (OnRoot fun tree => tree = root)
      (checkBackup platform faults source destination)
      (fun _ state =>
        BackupChecked platform source destination root ∧
          OnRoot (fun tree => tree = root) state)
      (fun _ => OnRoot fun tree => tree = root) := by
  refine (meets_check _ _).bind fun _ => ?_
  rintro state ⟨apart, same⟩
  refine ((meets_reading_root faults _ _).bind fun _ => ?_) state same
  rintro state ⟨data, same⟩
  refine ((meets_reading_root faults _ _).mono (fun _ => id) ?_
    fun _ _ => id) state same
  rintro _ state ⟨empty, same⟩
  exact ⟨⟨not_nested_of_ok apart, data, empty⟩, same⟩

/-- What is asked of one tree. -/
theorem returns_asking_root
    {Value : Type}
    (look : FileTree JsString → Value) :
    Returns (OnRoot fun tree => tree = root)
      (asking look : BackupProgram Value)
      (fun found state =>
        found = look root ∧ OnRoot (fun tree => tree = root) state) := by
  intro state same
  refine ⟨?_, same⟩
  unfold OnRoot at same
  rw [same]

/-- What is followed leads somewhere. -/
theorem meets_follow (look : FileTree JsString → Option Path) :
    Meets (OnRoot fun tree => tree = root) (follow look)
      (fun path state =>
        look root = some path ∧ OnRoot (fun tree => tree = root) state)
      (fun _ => OnRoot fun tree => tree = root) := by
  refine Meets.bind ((returns_asking_root look).mono (fun _ => id)
    (fun _ _ => id) fun _ _ absurd => absurd.elim) fun found => ?_
  rintro state ⟨result, same⟩
  cases found with
  | none =>
      exact same
  | some path =>
      exact ⟨result.symm, same⟩

/-- What can be followed is followed. -/
theorem returns_follow
    {look : FileTree JsString → Option Path}
    {path : Path}
    (leads : look root = some path) :
    Returns (OnRoot fun tree => tree = root) (follow look)
      (fun found state =>
        found = path ∧ OnRoot (fun tree => tree = root) state) := by
  refine (returns_asking_root look).bind fun found => ?_
  rintro state ⟨rfl, same⟩
  rw [leads]
  exact ⟨rfl, same⟩

/-- The place of a directory that may be used is not the one of a file. -/
theorem ne_of_assertEmptyOrMissing
    {use : DirectoryUse}
    {path : Path}
    {bytes : Bytes}
    (empty : assertEmptyOrMissing destination use root = .ok ())
    (leads : root.place destination = some published)
    (file : root.get path = some (.file bytes)) :
    published ≠ path := by
  rintro rfl
  have stands := FileTree.stat_of_place leads (by simp [file])
  simp [assertEmptyOrMissing, stands, file] at empty

/-- The place of a directory that may be used is not the root of the tree. -/
theorem ne_nil_of_assertEmptyOrMissing
    {use : DirectoryUse}
    {path : Path}
    {bytes : Bytes}
    (empty : assertEmptyOrMissing destination use root = .ok ())
    (leads : root.place destination = some published)
    (file : root.get path = some (.file bytes)) :
    published ≠ [] := by
  rintro rfl
  obtain rfl := FileTree.eq_nil_of_place leads
  have stands : root.stat [] = some root := by
    simp [FileTree.stat, FileTree.real, FileTree.followLinks, FileTree.maxLinks,
      FileTree.walkWith]
  rw [assertEmptyOrMissing, stands] at empty
  cases root with
  | directory entries =>
      cases entries with
      | nil =>
          cases path <;> simp at file
      | cons entry entries =>
          simp at empty
  | _ =>
      simp at empty

/-- A lock with a directory in the way is not taken, and the source is left. -/
theorem meets_acquireDirectoryLock_refused
    {caller : Caller}
    {path way : Path}
    {kind : Option Bytes}
    (kept : ¬ IsLockFile source path)
    (blocked : IsLockWay caller source way) :
    Meets
      (OnRoot fun tree => Stands path kind tree ∧ Stands way none tree)
      (acquireDirectoryLock platform caller faults source)
      (fun _ _ => False) (fun _ => OnRoot (Stands path kind)) :=
  ((keeps_acquireDirectoryLock platform caller faults kept).and
    (meets_acquireDirectoryLock_blocked platform caller faults blocked)).mono
      (fun _ => id) (fun _ _ known => known.2) fun _ _ known => known.1

/-- Without an overlap, a backup keeps every file of the source. -/
theorem backupLeavesSource_of_not_overlap
    {caller : Caller}
    {cwd : Path}
    {options : BackupOptions}
    (unshared :
      ∀ locked published,
        ¬ BackupOverlap platform caller (resolve cwd options.dataDirectory)
          (resolve cwd options.backupDirectory) locked published root) :
    BackupLeavesSource platform caller cwd options root := by
  intro faults path bytes kept file
  have stands : Stands path (some bytes) root := stands_some_iff.mpr file
  have kept_root :
      ∀ state, OnRoot (fun tree => tree = root) state →
        OnRoot (Stands path (some bytes)) state := by
    rintro state same
    unfold OnRoot at same ⊢
    exact same ▸ stands
  have run :
      Meets (OnRoot fun tree => tree = root)
        (createBackup platform faults caller cwd options)
        (fun _ => OnRoot (Stands path (some bytes)))
        (fun _ => OnRoot (Stands path (some bytes))) := by
    refine ((meets_checkBackup platform faults).mono (fun _ => id)
      (fun _ _ => id) fun _ => kept_root).bind fun _ => ?_
    rintro state ⟨checked, same⟩
    refine (((meets_follow _).mono (fun _ => id) (fun _ _ => id)
      fun _ => kept_root).bind fun locked => ?_) state same
    rintro state ⟨source_leads, same⟩
    have unlocked := kept.2 locked source_leads
    refine (((meets_follow _).mono (fun _ => id) (fun _ _ => id)
      fun _ => kept_root).bind fun published => ?_) state same
    rintro state ⟨destination_leads, same⟩
    by_cases blocked :
        ∃ way, IsLockWay caller locked way ∧ Stands way none root
    · obtain ⟨way, is_way, directory⟩ := blocked
      refine ((meets_acquireDirectoryLock_refused platform faults unlocked
        is_way).bind fun _ _ absurd => absurd.elim) state ?_
      unfold OnRoot at same ⊢
      exact same ▸ ⟨stands, directory⟩
    · -- Nothing is in the way, so the file is not where the backup is built.
      have outside : ¬ partialPath published <+: path := by
        intro below
        refine unshared locked published ⟨checked.apart, checked.data,
          checked.empty, source_leads, destination_leads, ?_, ?_,
          path, bytes, kept, below, file⟩
        · exact fun directory => blocked ⟨_, .inl rfl, directory⟩
        · exact fun directory => blocked ⟨_, .inr rfl, directory⟩
      have distinct :=
        ne_of_assertEmptyOrMissing checked.empty destination_leads file
      have beside : lockPath locked ≠ path :=
        fun same => unlocked (.inl same.symm)
      have built :
          Keeps (OnRoot (Stands path (some bytes)))
            (andFinally
              ((buildBackup platform faults caller.now
                  (resolve cwd options.dataDirectory)
                  (resolve cwd options.backupDirectory) published
                  (partialPath published)).orCatch
                (cleanUp faults (partialPath published)))
              (releaseLock platform caller faults locked)) :=
        ((keeps_buildBackup platform faults _ outside distinct).orCatch
          (keeps_cleanUp faults outside)).andFinally
          (keeps_releaseLock platform caller faults
            (keeps_unlinkSync faults beside))
      exact ((keeps_acquireDirectoryLock platform caller faults unlocked).bind
        fun _ => built) state (kept_root state same)
  exact stands_some_iff.mp (run.after rfl)

/-- A data directory is a directory. -/
theorem hasDirectory_of_assertDataDirectory
    (data : assertDataDirectory platform source root = .ok ())
    (leads : root.real source = some locked) :
    root.hasDirectory locked = true := by
  have there : root.stat (source ++ [dataManifestFile]) ≠ none := by
    intro missing
    simp [assertDataDirectory, missing] at data
  exact FileTree.hasDirectory_of_stat there leads

/-- The place where a backup is built is beside its destination. -/
theorem withSuffix_beside
    {suffix : JsString}
    (written : suffix ≠ [])
    (below : destination ≠ []) :
    withSuffix destination suffix ≠ [] ∧
      ¬ destination <+: withSuffix destination suffix := by
  refine ⟨?_, (not_prefix_withSuffix written below).1⟩
  intro empty
  exact (not_prefix_withSuffix written below).2 (empty ▸ List.nil_prefix)

/-- What is read of one tree, when no fault hits it. -/
theorem returns_reading_root
    {Value : Type}
    {label : FileCall JsString}
    {look : FileTree JsString → Except (FileFailure BackupError) Value}
    {value : Value}
    (free : ∀ count, faults count label = none)
    (works : look root = .ok value) :
    Returns (OnRoot fun tree => tree = root) (reading faults label look)
      (fun _ => OnRoot fun tree => tree = root) := by
  refine (@returns_reading _ _ _ _ _ _ _ (fun _ => True) free ?_).mono
    (fun _ => id) (fun _ _ known => known.2) fun _ _ => id
  rintro tree rfl
  exact ⟨value, works, trivial⟩

/-- Directories that are not nested pass the test. -/
theorem returns_assertNotNested
    (apart : nested source destination = false)
    (before : FileState JsString → Prop) :
    Returns before (check (assertNotNested source destination))
      (fun _ => before) := by
  have accepted : assertNotNested source destination = .ok () := by
    simp [assertNotNested, apart]
  rw [accepted]
  exact fun _ holds => holds

/-- The checks pass with the faults that only the lock is hit by. -/
theorem returns_checkBackup
    (checked : BackupChecked platform source destination root) :
    Returns (OnRoot fun tree => tree = root)
      (checkBackup platform (lockFaults locked) source destination)
      (fun _ => OnRoot fun tree => tree = root) := by
  have other : source ++ [dataManifestFile] ≠ lockPath locked := by
    intro same
    have names := (List.append_inj' same rfl).2
    revert names
    decide +kernel
  refine (returns_assertNotNested checked.apart _).bind fun _ => ?_
  refine (returns_reading_root _ (lockFaults_free (by simpa using other)
    (by simp)) checked.data).bind fun _ => ?_
  exact returns_reading_root _ (lockFaults_free (by simp) (by simp))
    checked.empty

/-- With an overlap, the place where the backup is built is removed. -/
theorem isGone_of_overlap
    {caller : Caller}
    {cwd : Path}
    {options : BackupOptions}
    (overlap :
      BackupOverlap platform caller (resolve cwd options.dataDirectory)
        (resolve cwd options.backupDirectory) locked published root)
    (below : published ≠ []) :
    IsGone (partialPath published)
      (createBackup platform (lockFaults locked) caller cwd options
        ⟨root, 0⟩).2 := by
  obtain ⟨built_below, beside⟩ :=
    withSuffix_beside (by decide +kernel : partialSuffix ≠ []) below
  have unblocked : Unblocked caller locked root :=
    ⟨hasDirectory_of_assertDataDirectory platform overlap.data
        overlap.source_leads,
      overlap.lock_free, overlap.private_free⟩
  have built :=
    meets_orCatch_cleanUp (lockFaults locked)
      (meets_buildBackup_gone platform (lockFaults locked) caller.now
        (resolve cwd options.dataDirectory)
        (resolve cwd options.backupDirectory) built_below beside)
      (lockFaults_free (by simp) (by simp)) built_below
  have released :
      Keeps (IsGone (partialPath published))
        (releaseLock platform caller (lockFaults locked) locked) :=
    keeps_releaseLock platform caller _ (keeps_unlinkSync_missing _ _)
  have acquired :
      Returns (OnRoot fun tree => tree = root)
        (acquireDirectoryLock platform caller (lockFaults locked) locked)
        (fun _ _ => True) := by
    refine (returns_acquireDirectoryLock platform).mono ?_ (fun _ _ => id)
      fun _ _ => id
    intro state same
    unfold OnRoot at same ⊢
    exact same ▸ unblocked
  have run :
      Meets (OnRoot fun tree => tree = root)
        (createBackup platform (lockFaults locked) caller cwd options)
        (fun _ => IsGone (partialPath published))
        (fun _ => IsGone (partialPath published)) := by
    refine (returns_checkBackup platform
      ⟨overlap.apart, overlap.data, overlap.empty⟩).bind fun _ => ?_
    refine (returns_follow overlap.source_leads).bind fun found => ?_
    rintro state ⟨rfl, same⟩
    refine ((returns_follow overlap.destination_leads).bind fun found => ?_)
      state same
    rintro state ⟨rfl, same⟩
    refine (acquired.bind fun _ => ?_) state same
    exact built.andFinally (fun _ => released) fun _ => released
  exact run.after rfl

/-- With an overlap, a backup loses a file of the source. -/
theorem not_backupLeavesSource_of_overlap
    {caller : Caller}
    {cwd : Path}
    {options : BackupOptions}
    (overlap :
      BackupOverlap platform caller (resolve cwd options.dataDirectory)
        (resolve cwd options.backupDirectory) locked published root) :
    ¬ BackupLeavesSource platform caller cwd options root := by
  intro leaves
  obtain ⟨path, bytes, kept, shared, file⟩ := overlap.file
  have gone := isGone_of_overlap platform overlap
    (ne_nil_of_assertEmptyOrMissing overlap.empty overlap.destination_leads
      file)
  have still := leaves (lockFaults locked) path bytes kept file
  obtain ⟨rest, rfl⟩ := shared
  rw [FileTree.get_append_of_none gone] at still
  cases still

/-- The files that a manifest lists are below the directory it is for. -/
theorem safe_of_readEntries
    {path : Path}
    {seen : List JsString}
    {raw : List (Option RawEntry)}
    {entries : List BackupFileEntry}
    (accepted : readEntries path seen raw = .ok entries) :
    ∀ entry ∈ entries, above ∉ splitNames entry.path := by
  induction raw generalizing seen entries with
  | nil =>
      cases accepted
      simp
  | cons first raw ih =>
      cases first with
      | none =>
          cases accepted
      | some first =>
          unfold readEntries at accepted
          split at accepted
          · obtain ⟨checked, accepted⟩ := Result.else_of_ok accepted
            obtain ⟨rest, later_ok, done⟩ := Result.bind_eq_ok.mp accepted
            cases done
            intro entry member
            rcases List.mem_cons.mp member with rfl | later
            · exact fun found => checked (.inr (.inr (.inl found)))
            · exact ih later_ok entry later
          · cases accepted

/-- The same for a manifest that was read. -/
theorem safe_of_readBackupManifest
    {manifest : BackupManifest}
    (accepted : readBackupManifest platform source root = .ok manifest) :
    ∀ entry ∈ manifest.files, above ∉ splitNames entry.path := by
  unfold readBackupManifest at accepted
  dsimp only at accepted
  split at accepted
  · cases accepted
  · split at accepted
    · cases accepted
    · cases accepted
    · unfold readFields at accepted
      obtain ⟨-, accepted⟩ := Result.else_of_ok accepted
      obtain ⟨-, accepted⟩ := Result.else_of_ok accepted
      split at accepted
      · obtain ⟨-, accepted⟩ := Result.else_of_ok accepted
        obtain ⟨entries, read, accepted⟩ := Result.bind_eq_ok.mp accepted
        split at accepted
        · cases accepted
          exact safe_of_readEntries read
        · cases accepted
      · cases accepted
  · cases accepted

/-- Without an overlap, a restore keeps every file of the backup. -/
theorem restoreLeavesSource_of_not_overlap
    {Report : Type}
    {engine : Engine Report}
    {cwd : Path}
    {options : RestoreOptions}
    (unshared :
      ∀ published,
        ¬ RestoreOverlap platform (resolve cwd options.backupDirectory)
          (resolve cwd options.dataDirectory) published root) :
    RestoreLeavesSource platform engine cwd options root := by
  intro faults path bytes kept file
  have stands : Stands path (some bytes) root := stands_some_iff.mpr file
  have kept_root :
      ∀ state, OnRoot (fun tree => tree = root) state →
        OnRoot (Stands path (some bytes)) state := by
    rintro state same
    unfold OnRoot at same ⊢
    exact same ▸ stands
  have run :
      Meets (OnRoot fun tree => tree = root)
        (restoreBackup platform faults engine cwd options)
        (fun _ => OnRoot (Stands path (some bytes)))
        (fun _ => OnRoot (Stands path (some bytes))) := by
    refine ((meets_check _ _).mono (fun _ => id) (fun _ _ => id)
      fun _ => kept_root).bind fun _ => ?_
    rintro state ⟨apart, same⟩
    refine (((meets_reading_root faults _ _).mono (fun _ => id)
      (fun _ _ => id) fun _ => kept_root).bind fun summary => ?_) state same
    rintro state ⟨accepted, same⟩
    refine (((meets_reading_root faults _ _).mono (fun _ => id)
      (fun _ _ => id) fun _ => kept_root).bind fun manifest => ?_) state same
    rintro state ⟨read, same⟩
    refine (((meets_reading_root faults _ _).mono (fun _ => id)
      (fun _ _ => id) fun _ => kept_root).bind fun _ => ?_) state same
    rintro state ⟨empty, same⟩
    refine (((meets_follow _).mono (fun _ => id) (fun _ _ => id)
      fun _ => kept_root).bind fun published => ?_) state same
    rintro state ⟨destination_leads, same⟩
    have outside : ¬ restoringPath published <+: path := by
      intro below
      exact unshared published ⟨not_nested_of_ok apart, ⟨summary, accepted⟩,
        empty, destination_leads, path, bytes, kept, below, file⟩
    have distinct := ne_of_assertEmptyOrMissing empty destination_leads file
    have safe := safe_of_readBackupManifest platform read
    exact ((keeps_buildRestore platform faults engine summary safe outside
      distinct).orCatch (keeps_cleanUp faults outside)) state
        (kept_root state same)
  exact stands_some_iff.mp (run.after rfl)

/-- A backup that was verified has a manifest that is read. -/
theorem exists_manifest_of_verifyBackup
    {summary : BackupSummary}
    (verified : verifyBackup platform source root = .ok summary) :
    ∃ manifest, readBackupManifest platform source root = .ok manifest := by
  obtain ⟨manifest, read, -⟩ := Result.bind_eq_ok.mp verified
  exact ⟨manifest, read⟩

/-- With an overlap, the place where the data is built is removed. -/
theorem isGone_of_restoreOverlap
    {Report : Type}
    (engine : Engine Report)
    {cwd : Path}
    {options : RestoreOptions}
    (overlap :
      RestoreOverlap platform (resolve cwd options.backupDirectory)
        (resolve cwd options.dataDirectory) published root)
    (below : published ≠ []) :
    IsGone (restoringPath published)
      (restoreBackup platform (fun _ _ => none) engine cwd options
        ⟨root, 0⟩).2 := by
  obtain ⟨built_below, beside⟩ :=
    withSuffix_beside (by decide +kernel : restoringSuffix ≠ []) below
  obtain ⟨summary, accepted⟩ := overlap.accepted
  obtain ⟨manifest, read⟩ := exists_manifest_of_verifyBackup platform accepted
  have run :
      Meets (OnRoot fun tree => tree = root)
        (restoreBackup platform (fun _ _ => none) engine cwd options)
        (fun _ => IsGone (restoringPath published))
        (fun _ => IsGone (restoringPath published)) := by
    refine (returns_assertNotNested overlap.apart _).bind fun _ => ?_
    refine (returns_reading_root _ (fun _ => rfl) accepted).bind
      fun summary => ?_
    refine (returns_reading_root _ (fun _ => rfl) read).bind
      fun manifest => ?_
    refine (returns_reading_root _ (fun _ => rfl) overlap.empty).bind
      fun _ => ?_
    refine (returns_follow overlap.destination_leads).bind fun found => ?_
    rintro state ⟨rfl, -⟩
    exact meets_orCatch_cleanUp _
      (meets_buildRestore_gone platform _ _ _ engine summary manifest
        built_below beside) (fun _ => rfl) built_below state trivial
  exact run.after rfl

/-- With an overlap, a restore loses a file of the backup. -/
theorem not_restoreLeavesSource_of_overlap
    {Report : Type}
    {engine : Engine Report}
    {cwd : Path}
    {options : RestoreOptions}
    (overlap :
      RestoreOverlap platform (resolve cwd options.backupDirectory)
        (resolve cwd options.dataDirectory) published root) :
    ¬ RestoreLeavesSource platform engine cwd options root := by
  intro leaves
  obtain ⟨path, bytes, kept, shared, file⟩ := overlap.file
  have gone := isGone_of_restoreOverlap platform engine overlap
    (ne_nil_of_assertEmptyOrMissing overlap.empty overlap.destination_leads
      file)
  have still := leaves (fun _ _ => none) path bytes kept file
  obtain ⟨rest, rfl⟩ := shared
  rw [FileTree.get_append_of_none gone] at still
  cases still

end

/-- The text of a manifest. -/
def sampleManifest : Bytes :=
  TextEncoder.encode (utf16 "\x7b\"format\":\"sinterdb-data\"\x7d")

/-- `JSON.parse` and `JSON.stringify` on the texts of one run. -/
def samplePlatform : Platform where
  parseManifest bytes :=
    if bytes = sampleManifest then
      .object ⟨.text storageFormat, .absent, .absent, .absent, .absent⟩
    else
      .invalid []
  parseBackup _ := .invalid
  backupText manifest := manifest.createdAt.map fun unit => unit.toUInt8
  sha256 bytes := bytes.map fun byte => byte.toUInt16
  lockText info := info.nonce.map fun unit => unit.toUInt8
  parseLock _ := none

/-- A process that makes a backup while no other process runs. -/
def sampleCaller : Caller where
  pid := 7
  hostname := utf16 "host"
  now := utf16 "2025-01-01T00:00:00.000Z"
  nonce := ⟨utf16 "0a", by decide +kernel, by decide +kernel⟩
  gone _ := true
  fresh := false
  held := false
  reclaimLock := false

/-- The manifest of a data directory is a file that a backup leaves alone. -/
theorem isSourceFile_manifest
    {root : FileTree JsString}
    {directory source : Path}
    {bytes : Bytes}
    (leads : root.real directory = some source)
    (there : root.get (source ++ [dataManifestFile]) = some (.file bytes)) :
    IsSourceFile root directory (source ++ [dataManifestFile]) := by
  have unlinked :
      ∀ target,
        root.get (source ++ [dataManifestFile]) ≠ some (.link target) := by
    simp [there]
  have further := FileTree.followLinks_append_of_some unlinked leads
  refine ⟨⟨[dataManifestFile], further⟩, fun locked same => ?_⟩
  obtain rfl : source = locked := Option.some.inj (leads.symm.trans same)
  rintro (lock | ⟨name, same, owner⟩)
  · have names := (List.append_inj' lock rfl).2
    revert names
    decide +kernel
  · obtain rfl : name = dataManifestFile := by
      simpa using same.symm
    revert owner
    decide +kernel

/-- A backup that loses the manifest does not leave the source alone. -/
theorem not_backupLeavesSource_of_run
    {options : BackupOptions}
    {root : FileTree JsString}
    (source : Path)
    (leads : root.real (resolve [] options.dataDirectory) = some source)
    (before :
      root.fileAt (source ++ [dataManifestFile]) = some sampleManifest)
    (after :
      (createBackup samplePlatform (fun _ _ => none) sampleCaller [] options
        ⟨root, 0⟩).2.root.fileAt (source ++ [dataManifestFile]) = none) :
    ¬ BackupLeavesSource samplePlatform sampleCaller [] options root := by
  intro leaves
  have there := FileTree.fileAt_eq_some_iff.mp before
  have still := leaves (fun _ _ => none) _ _
    (isSourceFile_manifest leads there) there
  rw [FileTree.fileAt_eq_some_iff.mpr still] at after
  cases after

/-- A data directory at `/x.partial`. -/
def partialRoot : FileTree JsString :=
  .directory
    [(utf16 "x.partial",
      .directory [(dataManifestFile, .file sampleManifest)])]

/-- A data directory at `/d/x.partial`, and a link at `/l` to `/d`. -/
def linkedRoot : FileTree JsString :=
  .directory
    [(utf16 "d", partialRoot), (utf16 "l", .link [utf16 "d"])]

-- No path of the caller says that the backup is built in its source.
example :
    ¬ BackupLeavesSource samplePlatform sampleCaller []
      ⟨utf16 "/d/x.partial", utf16 "/l/x"⟩ linkedRoot :=
  not_backupLeavesSource_of_run [utf16 "d", utf16 "x.partial"]
    (by decide +kernel) (by decide +kernel) (by decide +kernel)

end SinterDb.Backup
