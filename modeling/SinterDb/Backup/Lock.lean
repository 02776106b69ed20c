import SinterDb.Backup.Format

namespace SinterDb.Backup

open Unicode
open Effect
open FileProgram
open Lock (LockInfo)

/-!
# The lock of a data directory, as files

`acquireDirectoryLock` and `release` as the file-system calls of one process,
on the real path of the directory.  What the process asks the operating system
for is in `Caller`; what it writes to the lock file and reads from it is in
`Platform`.
-/

/-- A character of a UUID. -/
def isUuidUnit (unit : UInt16) : Bool :=
  (0x30 ≤ unit && unit ≤ 0x39) || (0x61 ≤ unit && unit ≤ 0x66) || unit = 0x2D

/-- A decimal digit. -/
def isDigit (unit : UInt16) : Bool :=
  0x30 ≤ unit && unit ≤ 0x39

/-- What `randomUUID` returns, as far as its characters go. -/
structure Nonce where
  text : JsString
  written : text ≠ []
  units : text.all isUuidUnit = true
  deriving Repr, DecidableEq

/-- The process that makes a backup, and what it sees of the others. -/
structure Caller where
  pid : Nat
  hostname : JsString
  now : JsString
  nonce : Nonce
  /-- Whether `process.kill(pid, 0)` finds no process. -/
  gone : Nat → Bool
  /-- Whether a lock file without an owner was written a moment ago. -/
  fresh : Bool
  /-- Whether `heldPaths` has the lock. -/
  held : Bool
  reclaimLock : Bool

/-- The pid in the name of a private file, if it is one. -/
def privateFileOwner (name : JsString) : Option Nat :=
  let start := lockName ++ utf16 "."
  let rest := name.drop start.length
  let digits := rest.takeWhile isDigit
  let nonce := (rest.dropWhile isDigit).drop 1
  if
      start.isPrefixOf name ∧ digits ≠ [] ∧
        (rest.dropWhile isDigit).head? = some 0x2E ∧
        nonce.takeWhile isUuidUnit ≠ [] ∧
        nonce.dropWhile isUuidUnit = utf16 ".tmp" then
    some (digits.foldl (fun value unit => 10 * value + (unit.toNat - 48)) 0)
  else
    none

/-- The name of the private file that is linked to the lock path. -/
def privateName (pid : Nat) (nonce : JsString) : JsString :=
  lockName ++ utf16 "." ++ Json.decimal pid ++ utf16 "." ++ nonce ++
    utf16 ".tmp"

/-- The path of the lock of a data directory. -/
def lockPath (directory : Path) : Path :=
  directory ++ [lockName]

/-- The lock and the private files of a lock in a directory. -/
def IsLockFile (directory path : Path) : Prop :=
  path = lockPath directory ∨
    ∃ name, path = directory ++ [name] ∧ (privateFileOwner name).isSome

section

variable (platform : Platform) (caller : Caller) (faults : Faults JsString)

/-- The owner that a process writes to its lock. -/
def Caller.info : LockInfo :=
  ⟨caller.pid, caller.hostname, caller.now, caller.nonce.text⟩

/-- The path of the private file of a process. -/
def privatePath (directory : Path) : Path :=
  directory ++ [privateName caller.pid caller.nonce.text]

/-- `readdirSync`. -/
def readdirSync (directory : Path) : BackupProgram (List JsString) :=
  reading faults (.list directory) fun root =>
    match root.get directory with
    | some (.directory entries) => .ok (entries.map Prod.fst)
    | some _ => .error (.io .ENOTDIR)
    | none => .error (.io .ENOENT)

/-- `unlinkSync` of a file that may be gone already. -/
def unlinkIfPresent (path : Path) : BackupProgram Unit :=
  (unlinkSync faults path).orCatch fun error =>
    if error = .io .ENOENT then pure () else throw error

/-- `sweepPrivateFiles`. -/
def sweepPrivateFiles (directory : Path) : BackupProgram Unit := do
  let names ← (readdirSync faults directory).orCatch fun _ => pure []
  forEach names fun name =>
    match privateFileOwner name with
    | none => pure ()
    | some pid =>
        if pid = caller.pid ∨ caller.gone pid then
          quietly (unlinkSync faults (directory ++ [name]))
        else
          pure ()

/-- `publishLock`. -/
def publishLock (directory : Path) : BackupProgram Unit := do
  let temporary := privatePath caller directory
  openExclusive faults temporary
  andFinally
    (do
      writeBytes faults temporary (platform.lockText caller.info)
      syncPath faults temporary
      linkSync faults temporary (lockPath directory))
    (quietly (unlinkSync faults temporary))

/-- `readLock`. -/
def readLock (directory : Path) : BackupProgram (Option LockInfo) :=
  orCatch
    (reading faults (.read (lockPath directory)) fun root =>
      match root.stat (lockPath directory) with
      | some (.file bytes) => .ok (platform.parseLock bytes)
      | _ => .error (.io .ENOENT))
    fun _ => pure none

/-- `lockIsFresh`. -/
def lockIsFresh (directory : Path) : BackupProgram Bool :=
  orCatch
    (reading faults (.stat (lockPath directory)) fun root =>
      match root.stat (lockPath directory) with
      | some _ => .ok caller.fresh
      | none => .error (.io .ENOENT))
    fun _ => pure false

/-- `isStale`. -/
def isStale (holder : LockInfo) : Bool :=
  if holder.hostname ≠ caller.hostname then
    caller.reclaimLock
  else
    Lock.isStale caller.hostname caller.pid caller.held
      (caller.gone holder.pid) holder

/-- Throws if the lock that was found is in use. -/
def refuseHeld
    (directory : Path) : Option LockInfo → BackupProgram Unit
  | none => do
      if ← lockIsFresh caller faults directory then
        throw (.thrown (.locked (lockPath directory) .startingUp))
  | some holder =>
      if isStale caller holder then
        pure ()
      else
        throw (.thrown (.locked (lockPath directory) (.held holder)))

/-- One attempt to publish the lock: whether it was free. -/
def tryPublish (directory : Path) : BackupProgram Bool :=
  orCatch
    (do
      publishLock platform caller faults directory
      pure true)
    fun error =>
      match error with
      | .io .EEXIST => pure false
      | .io code => throw (.thrown (.createLock (lockPath directory) code))
      | .thrown error => throw (.thrown error)

/-- The attempts of `acquireDirectoryLock`. -/
def acquireLoop (directory : Path) : Nat → BackupProgram Unit
  | 0 => throw (.thrown (.locked (lockPath directory) .keptChanging))
  | attempts + 1 => do
      if ← tryPublish platform caller faults directory then
        pure ()
      else
        let holder ← readLock platform faults directory
        refuseHeld caller faults directory holder
        unlinkIfPresent faults (lockPath directory)
        acquireLoop directory attempts

/-- `acquireDirectoryLock`. -/
def acquireDirectoryLock (directory : Path) : BackupProgram Unit := do
  sweepPrivateFiles caller faults directory
  acquireLoop platform caller faults directory Lock.maxAttempts

/-- `releaseLock`. -/
def releaseLock (directory : Path) : BackupProgram Unit := do
  let holder ← readLock platform faults directory
  if holder.map LockInfo.nonce = some caller.nonce.text then
    unlinkIfPresent faults (lockPath directory)
  else
    pure ()

end

end SinterDb.Backup
