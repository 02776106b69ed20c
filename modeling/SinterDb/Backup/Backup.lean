import SinterDb.Backup.Lock

namespace SinterDb.Backup

open Unicode
open Effect
open FileProgram

/-!
# Making and restoring backups

`createBackup` and `restoreBackup` as programs over files.  Both build what
they make next to the destination and move it there at the end.

What is read is read at the paths that were asked for, over the links on them.
What is written or removed is at real paths: the links on the way to the source
and to the destination are followed once, when the checks have passed.
-/

/-- What `createBackup` is asked to do. -/
structure BackupOptions where
  dataDirectory : JsString
  backupDirectory : JsString
  deriving Repr, DecidableEq

/-- What `createBackup` returns. -/
structure BackupResult where
  directory : Path
  files : Nat
  bytes : Nat
  createdAt : JsString
  deriving Repr, DecidableEq

/-- What `restoreBackup` is asked to do. -/
structure RestoreOptions where
  backupDirectory : JsString
  dataDirectory : JsString
  deriving Repr, DecidableEq

/-- What `restoreBackup` returns. -/
structure RestoreResult (Report : Type) where
  directory : Path
  files : Nat
  bytes : Nat
  recovery : Report

/-- What `copyFile` returns. -/
structure CopiedFile where
  size : Nat
  sha256 : JsString
  deriving Repr, DecidableEq

/-- A file-system call of the storage engine, on paths in its directory. -/
inductive EngineStep where
  | mkdir (path : Path)
  | write (path : Path) (bytes : Bytes)
  | append (path : Path) (bytes : Bytes)
  | unlink (path : Path)
  | rename (source target : Path)
  deriving Repr, DecidableEq

/--
The storage engine, opened and closed on a directory: what it does to the files
there and what it reports, if it opens.
-/
structure Engine (Report : Type) where
  steps : FileTree JsString → List EngineStep
  report : FileTree JsString → Option Report

/-- The names of the directories that are built before they are moved. -/
def partialSuffix : JsString := utf16 ".partial"

@[inherit_doc partialSuffix]
def restoringSuffix : JsString := utf16 ".restoring"

/-- Where a backup is built. -/
def partialPath (destination : Path) : Path :=
  withSuffix destination partialSuffix

/-- Where a data directory is built. -/
def restoringPath (destination : Path) : Path :=
  withSuffix destination restoringSuffix

section

variable (platform : Platform) (faults : Faults JsString)

/-- A check that looks at no files. -/
def check (result : Except (FileFailure BackupError) Unit) :
    BackupProgram Unit :=
  match result with
  | .ok _ => pure ()
  | .error error => throw error

/-- The contents of a file that is read. -/
def readFile
    (path : Path)
    (root : FileTree JsString) : Except (FileFailure BackupError) Bytes :=
  match root.stat path with
  | some (.file bytes) => .ok bytes
  | some (.directory _) => .error (.io .EISDIR)
  | some _ => .error (.io .noDevice)
  | none => .error (.io .ENOENT)

/-- `copyFile`. -/
def copyFile (source target : Path) : BackupProgram CopiedFile := do
  mkdirSync faults target.dropLast
  reading faults (.read source) fun root =>
    if (root.stat source).isSome then .ok () else .error (.io .ENOENT)
  openForWriting faults target
  let bytes ← reading faults (.read source) (readFile source)
  writeBytes faults target bytes
  syncPath faults target
  pure ⟨bytes.length, platform.sha256 bytes⟩

/-- The loop of `createBackup` over the files of the data directory. -/
def copyFiles
    (source target : Path) :
    List Path → BackupProgram (List (Path × CopiedFile))
  | [] => pure []
  | path :: paths => do
      let copied ← copyFile platform faults (source ++ path) (target ++ path)
      let rest ← copyFiles source target paths
      pure ((path, copied) :: rest)

/-- The loop of `restoreBackup` over the files of the manifest. -/
def restoreFile
    (source target : Path)
    (entry : BackupFileEntry) : BackupProgram Unit := do
  let copied ←
    copyFile platform faults (join source entry.path) (join target entry.path)
  if copied.sha256 ≠ entry.sha256 ∨ !sizeIs copied.size entry.size then
    throw (.thrown (.changed entry.path))
  else
    pure ()

/-- `translateIo` of a failed `writeFileAtomic`. -/
def translateIo (path : Path) : FileFailure BackupError → FileFailure BackupError
  | .io error => .thrown (.writeFile path error)
  | .thrown error => .thrown error

/-- `writeFileAtomic`. -/
def writeFileAtomic
    (directory path : Path)
    (contents : Bytes) : BackupProgram Unit := do
  let temporary := withSuffix path (utf16 ".tmp")
  orCatch
    (do
      openForWriting faults temporary
      writeBytes faults temporary contents
      syncPath faults temporary
      renameSync faults temporary path)
    fun error => do
      quietly (unlinkSync faults temporary)
      throw (translateIo path error)
  syncPath faults directory

/-- `syncTree`; it does not matter which of the directories fails. -/
def syncTree (directory : Path) : BackupProgram Unit :=
  syncPath faults directory

/-- `publish`. -/
def publish (temporary destination : Path) : BackupProgram Unit := do
  mkdirSync faults destination.dropLast
  if ← asking fun root => (root.stat destination).isSome then
    rmdirSync faults destination
  renameSync faults temporary destination
  syncPath faults destination.dropLast

/-- Where a path leads, by links that can be followed to their end. -/
def follow (look : FileTree JsString → Option Path) : BackupProgram Path := do
  match ← asking look with
  | none => throw (.io .ELOOP)
  | some path => pure path

/-- The part of `createBackup` that works in the temporary directory. -/
def buildBackup
    (now : JsString)
    (source destination published temporary : Path) :
    BackupProgram BackupResult := do
  rmSync faults temporary
  mkdirSync faults temporary
  let paths ← reading faults (.list source) (listFiles source false)
  let copied ← copyFiles platform faults source temporary paths
  let entries := copied.map fun (path, file) =>
    ⟨joinNames path, .ofInt file.size, file.sha256⟩
  writeFileAtomic faults temporary (temporary ++ [backupManifestFile])
    (platform.backupText ⟨now, .ofInt storageFormatVersion, entries⟩)
  syncTree faults temporary
  publish faults temporary published
  pure
    ⟨destination, entries.length,
      (copied.map fun (_, file) => file.size).sum, now⟩

/-- Removes the temporary directory and throws again. -/
def cleanUp
    {Value : Type}
    (temporary : Path)
    (error : FileFailure BackupError) : BackupProgram Value := do
  rmSync faults temporary
  throw error

/-- The checks of `createBackup`. -/
def checkBackup (source destination : Path) : BackupProgram Unit := do
  check (assertNotNested source destination)
  reading faults (.read (source ++ [dataManifestFile]))
    (assertDataDirectory platform source)
  reading faults (.list destination) (assertEmptyOrMissing destination .backup)

/-- `createBackup`. -/
def createBackup
    (caller : Caller)
    (cwd : Path)
    (options : BackupOptions) : BackupProgram BackupResult := do
  let source := resolve cwd options.dataDirectory
  let destination := resolve cwd options.backupDirectory
  checkBackup platform faults source destination
  let locked ← follow fun root => root.real source
  let published ← follow fun root => root.place destination
  acquireDirectoryLock platform caller faults locked
  let temporary := partialPath published
  andFinally
    ((buildBackup platform faults caller.now source destination published
      temporary).orCatch (cleanUp faults temporary))
    (releaseLock platform caller faults locked)

/-- A call of the storage engine in its directory. -/
def EngineStep.run (directory : Path) : EngineStep → BackupProgram Unit
  | .mkdir path => mkdirOne faults (directory ++ path)
  | .write path bytes => do
      openForWriting faults (directory ++ path)
      writeBytes faults (directory ++ path) bytes
  | .append path bytes => writeBytes faults (directory ++ path) bytes
  | .unlink path => unlinkSync faults (directory ++ path)
  | .rename source target =>
      renameSync faults (directory ++ source) (directory ++ target)

variable {Report : Type}

/-- `StorageEngine.open` and `close`. -/
def openEngine
    (engine : Engine Report)
    (directory : Path) : BackupProgram Report := do
  let steps ← asking engine.steps
  forEach steps (EngineStep.run faults directory)
  match ← asking engine.report with
  | none => throw (.thrown .cannotRecover)
  | some report => pure report

/-- The part of `restoreBackup` that works in the temporary directory. -/
def buildRestore
    (engine : Engine Report)
    (summary : BackupSummary)
    (manifest : BackupManifest)
    (source destination published temporary : Path) :
    BackupProgram (RestoreResult Report) := do
  rmSync faults temporary
  mkdirSync faults temporary
  forEach manifest.files (restoreFile platform faults source temporary)
  let recovery ←
    (openEngine faults engine temporary).orCatch fun _ =>
      throw (.thrown .cannotRecover)
  syncTree faults temporary
  publish faults temporary published
  pure ⟨destination, summary.files, summary.bytes, recovery⟩

/-- `restoreBackup`. -/
def restoreBackup
    (engine : Engine Report)
    (cwd : Path)
    (options : RestoreOptions) : BackupProgram (RestoreResult Report) := do
  let source := resolve cwd options.backupDirectory
  let destination := resolve cwd options.dataDirectory
  check (assertNotNested source destination)
  let summary ←
    reading faults (.list source) (verifyBackup platform source)
  let manifest ←
    reading faults (.read (source ++ [backupManifestFile]))
      (readBackupManifest platform source)
  reading faults (.list destination)
    (assertEmptyOrMissing destination .dataDirectory)
  let published ← follow fun root => root.place destination
  let temporary := restoringPath published
  (buildRestore platform faults engine summary manifest source destination
    published temporary).orCatch (cleanUp faults temporary)

end

end SinterDb.Backup
