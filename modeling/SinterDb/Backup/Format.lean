import SinterDb.Backup.Paths
import SinterDb.Engine.Lock
import SinterDb.Engine.Recover

namespace SinterDb.Backup

open Unicode
open FileProgram
open Lock (LockInfo)

/-!
# What a backup holds

The files of a backup and the manifest that lists them, and what is read of a
backup or a data directory before anything is written.  The texts of JSON files
and the checksums are in `Platform`.
-/

/-- The fields of a file of a backup, as far as they have the right types. -/
structure RawEntry where
  path : Option JsString
  size : Option JsNumber
  sha256 : Option JsString
  deriving Repr, DecidableEq

/-- The fields of a parsed `backup.json`, as far as they have the right types;
an entry of `files` that is `null` is `none`. -/
structure RawBackup where
  format : Option JsString
  formatVersion : Option JsNumber
  createdAt : Option JsString
  storageFormatVersion : Option JsNumber
  files : Option (List (Option RawEntry))
  deriving Repr, DecidableEq

/-- What `JSON.parse` makes of `backup.json`; a primitive has no fields. -/
inductive BackupJson where
  | invalid
  | null
  | object (fields : RawBackup)
  deriving Repr, DecidableEq

/-- A file of a backup. -/
structure BackupFileEntry where
  path : JsString
  size : JsNumber
  sha256 : JsString
  deriving Repr, DecidableEq

/-- What the backup writes about itself. -/
structure BackupManifest where
  createdAt : JsString
  storageFormatVersion : JsNumber
  files : List BackupFileEntry
  deriving Repr, DecidableEq

/-- JSON texts and checksums. -/
structure Platform where
  parseManifest : Bytes → ManifestJson
  parseBackup : Bytes → BackupJson
  backupText : BackupManifest → Bytes
  sha256 : Bytes → JsString
  lockText : LockInfo → Bytes
  parseLock : Bytes → Option LockInfo

/-- Why the lock was not taken. -/
inductive LockedReason where
  | startingUp
  | held (holder : LockInfo)
  | keptChanging
  deriving Repr, DecidableEq

/-- What a directory was to be used for. -/
inductive DirectoryUse where
  | backup
  | dataDirectory
  deriving Repr, DecidableEq

/-- What is wrong with a file of a backup. -/
inductive BackupProblem where
  | missing (path : JsString)
  | wrongSize (path : JsString) (size : Nat) (recorded : JsNumber)
  | wrongChecksum (path : JsString)
  | notPart (path : JsString)
  deriving Repr, DecidableEq

/-- The errors of backups. -/
inductive BackupError where
  | locked (path : Path) (reason : LockedReason)
  | createLock (path : Path) (error : Errno)
  | writeFile (path : Path) (error : Errno)
  | nestedDirectories (first second : Path)
  | noManifest (directory : Path)
  | manifestInvalid (path : Path)
  | notDataDirectory (directory : Path)
  | notADirectory (directory : Path)
  | notEmpty (use : DirectoryUse) (directory : Path)
  | noBackupManifest (directory : Path)
  | backupManifestInvalid (path : Path)
  | notABackup (directory : Path)
  | newerBackup (version : Option JsNumber)
  | incompleteManifest (path : Path)
  | newerStorage (version : JsNumber)
  | invalidFile (path : Path)
  | noDataManifest (path : Path)
  | damaged (directory : Path) (problems : List BackupProblem)
  | changed (path : JsString)
  | cannotRecover
  /-- `TypeError` of a field of `null`. -/
  | fieldOfNull
  deriving Repr, DecidableEq

/-- Programs over files with the errors of backups. -/
abbrev BackupProgram (Value : Type) := FileProgram JsString BackupError Value

/-- `BACKUP_FORMAT`. -/
def backupFormat : JsString := utf16 "sinterdb-backup"

/-- `BACKUP_FORMAT_VERSION`. -/
def backupFormatVersion : JsNumber := .ofInt 1

/-- `BACKUP_MANIFEST_FILE`. -/
def backupManifestFile : JsString := utf16 "backup.json"

/-- The manifest of a data directory. -/
def dataManifestFile : JsString := utf16 "manifest.json"

/-- The name of the lock file. -/
def lockName : JsString := utf16 "LOCK"

/-- `>` of numbers. -/
def isAbove (first second : JsNumber) : Bool :=
  match first.position, second.position with
  | some one, some other =>
      other.1 < one.1 || (other.1 = one.1 && other.2 < one.2)
  | _, _ => false

/-- `===` of a size and a number. -/
def sizeIs (size : Nat) (number : JsNumber) : Bool :=
  (JsNumber.ofInt size).position = number.position

mutual

/-- The files below a node, by the names on the way; no link is followed. -/
def walk : FileTree JsString → List Path
  | .file _ => [[]]
  | .directory entries => walkEntries entries
  | _ => []

@[inherit_doc walk]
def walkEntries : List (JsString × FileTree JsString) → List Path
  | [] => []
  | (name, node) :: entries =>
      (walk node).map (name :: ·) ++ walkEntries entries

end

/-- Whether `listFiles` takes a file that is not asked for in any case. -/
def isCopied (path : Path) : Bool :=
  !(path = [lockName] || (utf16 ".tmp").isSuffixOf (path.getLastD []) ||
    (utf16 "quarantine/").isPrefixOf (joinNames path))

/-- `listFiles`. -/
def listFiles
    (directory : Path)
    (includeAll : Bool)
    (root : FileTree JsString) :
    Except (FileFailure BackupError) (List Path) :=
  match root.stat directory with
  | none => .error (.io .ENOENT)
  | some (.directory entries) =>
      .ok
        (((walkEntries entries).filter
            fun path => includeAll || isCopied path).mergeSort
          fun first second => decide (joinNames first ≤ joinNames second))
  | some _ => .error (.io .ENOTDIR)

/-- `assertNotNested`. -/
def assertNotNested
    (first second : Path) : Except (FileFailure BackupError) Unit :=
  if nested first second then
    .error (.thrown (.nestedDirectories first second))
  else
    .ok ()

/-- `assertEmptyOrMissing`. -/
def assertEmptyOrMissing
    (directory : Path)
    (use : DirectoryUse)
    (root : FileTree JsString) : Except (FileFailure BackupError) Unit :=
  match root.stat directory with
  | none => .ok ()
  | some (.directory []) => .ok ()
  | some (.directory _) => .error (.thrown (.notEmpty use directory))
  | some _ => .error (.thrown (.notADirectory directory))

section

variable (platform : Platform)

/-- `assertDataDirectory`. -/
def assertDataDirectory
    (directory : Path)
    (root : FileTree JsString) : Except (FileFailure BackupError) Unit :=
  let path := directory ++ [dataManifestFile]
  match root.stat path with
  | none => .error (.thrown (.noManifest directory))
  | some (.file bytes) =>
      match platform.parseManifest bytes with
      | .missing | .invalid _ => .error (.thrown (.manifestInvalid path))
      | .null => .error (.thrown .fieldOfNull)
      | .primitive => .error (.thrown (.notDataDirectory directory))
      | .object fields =>
          if fields.format = .text storageFormat then
            .ok ()
          else
            .error (.thrown (.notDataDirectory directory))
  | some _ => .error (.thrown (.manifestInvalid path))

/-- The checks of the files that a backup manifest lists. -/
def readEntries
    (path : Path) :
    List JsString → List (Option RawEntry) →
      Except (FileFailure BackupError) (List BackupFileEntry)
  | _, [] => .ok []
  | _, none :: _ => .error (.thrown .fieldOfNull)
  | seen, some entry :: entries =>
      match entry.path, entry.size, entry.sha256 with
      | some name, some size, some sha256 =>
          if
              name = [] ∨ isAbsolute name ∨ above ∈ splitNames name ∨
                name ∈ seen then
            .error (.thrown (.invalidFile path))
          else do
            let rest ← readEntries path (name :: seen) entries
            .ok (⟨name, size, sha256⟩ :: rest)
      | _, _, _ => .error (.thrown (.invalidFile path))

/-- The checks of the fields of a backup manifest. -/
def readFields
    (directory path : Path)
    (fields : RawBackup) :
    Except (FileFailure BackupError) BackupManifest :=
  if fields.format ≠ some backupFormat then
    .error (.thrown (.notABackup directory))
  else if
      !(fields.formatVersion.any fun version =>
        !isAbove version backupFormatVersion) then
    .error (.thrown (.newerBackup fields.formatVersion))
  else
    match fields.createdAt, fields.storageFormatVersion, fields.files with
    | some createdAt, some storage, some files =>
        if isAbove storage (.ofInt storageFormatVersion) then
          .error (.thrown (.newerStorage storage))
        else do
          let entries ← readEntries path [] files
          if dataManifestFile ∈ entries.map BackupFileEntry.path then
            .ok ⟨createdAt, storage, entries⟩
          else
            .error (.thrown (.noDataManifest path))
    | _, _, _ => .error (.thrown (.incompleteManifest path))

/-- `readBackupManifest`. -/
def readBackupManifest
    (directory : Path)
    (root : FileTree JsString) :
    Except (FileFailure BackupError) BackupManifest :=
  let path := directory ++ [backupManifestFile]
  match root.stat path with
  | none => .error (.thrown (.noBackupManifest directory))
  | some (.file bytes) =>
      match platform.parseBackup bytes with
      | .invalid => .error (.thrown (.backupManifestInvalid path))
      | .null => .error (.thrown .fieldOfNull)
      | .object fields => readFields directory path fields
  | some _ => .error (.thrown (.backupManifestInvalid path))

/-- What is wrong with a file that a manifest lists; `EISDIR` for a directory,
which is not a file of any size.  A special file has no bytes, and is not read. -/
def checkEntry
    (directory : Path)
    (root : FileTree JsString)
    (entry : BackupFileEntry) :
    Except (FileFailure BackupError) (List BackupProblem) :=
  match root.stat (join directory entry.path) with
  | none => .ok [.missing entry.path]
  | some (.directory _) => .error (.io .EISDIR)
  | some (.file bytes) =>
      -- A path that ends with a slash does not name a file.
      if entry.path.getLast? = some slash then
        .ok [.missing entry.path]
      else if !sizeIs bytes.length entry.size then
        .ok [.wrongSize entry.path bytes.length entry.size]
      else if platform.sha256 bytes ≠ entry.sha256 then
        .ok [.wrongChecksum entry.path]
      else
        .ok []
  | some _ =>
      if sizeIs 0 entry.size then
        .error (.io .noDevice)
      else
        .ok [.wrongSize entry.path 0 entry.size]

/-- What `verifyBackup` returns, as far as it is used. -/
structure BackupSummary where
  files : Nat
  bytes : Nat
  deriving Repr, DecidableEq

/-- The size of a file that a manifest lists. -/
def entrySize
    (directory : Path)
    (root : FileTree JsString)
    (entry : BackupFileEntry) : Nat :=
  match root.stat (join directory entry.path) with
  | some (.file bytes) => bytes.length
  | _ => 0

/-- `verifyBackup`. -/
def verifyBackup
    (directory : Path)
    (root : FileTree JsString) :
    Except (FileFailure BackupError) BackupSummary := do
  let manifest ← readBackupManifest platform directory root
  let found ← manifest.files.mapM (checkEntry platform directory root)
  let present ← listFiles directory true root
  let known := backupManifestFile :: manifest.files.map BackupFileEntry.path
  let extra := (present.map joinNames).filter fun path => path ∉ known
  let problems := found.flatten ++ extra.map BackupProblem.notPart
  if problems = [] then
    .ok
      ⟨manifest.files.length,
        (manifest.files.map (entrySize directory root)).sum⟩
  else
    .error (.thrown (.damaged directory problems))

end

end SinterDb.Backup
