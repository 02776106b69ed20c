import SinterDb.Lib.Unicode

namespace SinterDb.Lock

/-!
# The lock of a data directory

Processes of one host that acquire and release the lock at one path.  Each call
is a sequence of file-system calls, and those of different processes may come
in any order.  Private files are left out: they carry the id and the nonce of
their process in their names, and only their link to the lock path is seen by
others.  Reading or examining a lock file that exists does not fail; every
other file-system call may.
-/

/-- `LockInfo`. -/
structure LockInfo where
  pid : Nat
  hostname : JsString
  startedAt : JsString
  nonce : JsString
  deriving Repr, DecidableEq

/--
The file at the lock path: which file it is, and the owner that `readLock`
finds in it, if it is readable.
-/
structure LockFile where
  inode : Nat
  owner : Option LockInfo
  deriving Repr, DecidableEq

/-- Where a process is in a call of `acquireDirectoryLock` or `release`. -/
inductive LockCall where
  | idle
  /-- `publishLock` is next. -/
  | linking (attempt : Nat) (info : LockInfo)
  /-- `publishLock` found a lock; `readLock` is next. -/
  | reading (attempt : Nat) (info : LockInfo)
  /-- `readLock` found no owner in this file; `lockIsFresh` is next. -/
  | examining (attempt : Nat) (info : LockInfo) (judged : Option LockFile)
  /-- This file was left behind; `unlinkSync` is next. -/
  | unlinking (attempt : Nat) (info : LockInfo) (judged : Option LockFile)
  /-- `readLock` of `releaseLock` is next. -/
  | releasing (nonce : JsString)
  /-- `unlinkSync` of `releaseLock` is next. -/
  | removing (nonce : JsString)
  deriving Repr, DecidableEq

/-- A process: its call, whether `heldPaths` has the path, and the nonces of
the locks that it got and has not released. -/
structure Process where
  call : LockCall := .idle
  held : Bool := false
  locks : List JsString := []
  deriving Repr, DecidableEq

/-- The lock path, the number of files that it has had, and the processes. -/
structure System where
  file : Option LockFile
  inodes : Nat
  process : Nat → Process

/--
What a process does next.  The events carry what the code asks the operating
system for: whether a process is gone, and whether a file is fresh.
-/
inductive LockEvent where
  | acquire (startedAt nonce : JsString)
  | link
  | read (gone : Bool)
  | stat (fresh : Bool)
  | unlink
  | release (nonce : JsString)
  | readOwn
  | unlinkOwn
  /-- A file-system call throws, and the call with it. -/
  | fail
  deriving Repr, DecidableEq

/-- The attempts of `acquireDirectoryLock`. -/
def maxAttempts : Nat := 3

/-- `isStale`, without `reclaimForeignLock`. -/
def isStale
    (host : JsString)
    (pid : Nat)
    (held gone : Bool)
    (holder : LockInfo) : Bool :=
  if holder.hostname ≠ host then
    false
  else if holder.pid = pid then
    !held
  else
    gone

namespace System

/-- A process changes, and nothing else. -/
def setProcess
    (system : System)
    (pid : Nat)
    (process : Process) : System :=
  { system with process := Function.update system.process pid process }

/-- A process goes on to another file-system call. -/
def goTo (system : System) (pid : Nat) (call : LockCall) : System :=
  system.setProcess pid { system.process pid with call := call }

/-- The next call of the loop of `acquireDirectoryLock`. -/
def retry (attempt : Nat) (info : LockInfo) : LockCall :=
  if attempt + 1 < maxAttempts then .linking (attempt + 1) info else .idle

/-- `publishLock`. -/
def link
    (system : System)
    (pid attempt : Nat)
    (info : LockInfo) : System :=
  match system.file with
  | some _ => system.goTo pid (.reading attempt info)
  | none =>
      { system with
        file := some ⟨system.inodes, some info⟩
        inodes := system.inodes + 1
        process :=
          Function.update system.process pid
            { call := .idle
              held := true
              locks := info.nonce :: (system.process pid).locks } }

/-- `readLock` and the test for a lock that was left behind. -/
def read
    (host : JsString)
    (system : System)
    (pid attempt : Nat)
    (info : LockInfo)
    (gone : Bool) : System :=
  match system.file with
  | none => system.goTo pid (.examining attempt info none)
  | some file =>
      match file.owner with
      | none => system.goTo pid (.examining attempt info (some file))
      | some holder =>
          if isStale host pid (system.process pid).held gone holder then
            system.goTo pid (.unlinking attempt info (some file))
          else
            system.goTo pid .idle

/-- `lockIsFresh`; a file that is missing is not fresh. -/
def stat
    (system : System)
    (pid attempt : Nat)
    (info : LockInfo)
    (judged : Option LockFile)
    (fresh : Bool) : System :=
  if system.file.isSome && fresh then
    system.goTo pid .idle
  else
    system.goTo pid (.unlinking attempt info judged)

/-- The owner of the file at the lock path. -/
def owner (system : System) : Option LockInfo :=
  system.file.bind LockFile.owner

/-- One file-system call of a process, or the start of a call. -/
def step
    (host : JsString)
    (system : System)
    (pid : Nat)
    (event : LockEvent) : Option System :=
  match (system.process pid).call, event with
  | .idle, .acquire startedAt nonce =>
      some (system.goTo pid (.linking 0 ⟨pid, host, startedAt, nonce⟩))
  | .linking attempt info, .link => some (system.link pid attempt info)
  | .linking _ _, .fail => some (system.goTo pid .idle)
  | .reading attempt info, .read gone =>
      some (system.read host pid attempt info gone)
  | .examining attempt info judged, .stat fresh =>
      some (system.stat pid attempt info judged fresh)
  | .unlinking attempt info _, .unlink =>
      some
        ({ system with file := none }.goTo pid (retry attempt info))
  | .unlinking _ _ _, .fail => some (system.goTo pid .idle)
  | .idle, .release nonce =>
      if nonce ∈ (system.process pid).locks then
        some
          (system.setProcess pid
            { call := .releasing nonce
              held := false
              locks := (system.process pid).locks.erase nonce })
      else
        none
  | .releasing nonce, .readOwn =>
      if system.owner.map LockInfo.nonce = some nonce then
        some (system.goTo pid (.removing nonce))
      else
        some (system.goTo pid .idle)
  | .removing _, .unlinkOwn =>
      some ({ system with file := none }.goTo pid .idle)
  | .removing _, .fail => some (system.goTo pid .idle)
  | _, _ => none

/-- Events of processes one after the other. -/
def run
    (host : JsString) : System → List (Nat × LockEvent) → Option System
  | system, [] => some system
  | system, (pid, event) :: events => do
      run host (← system.step host pid event) events

/-- Nothing has been called yet; the lock file is whatever it is. -/
structure Initial (system : System) : Prop where
  processes : ∀ pid, system.process pid = {}
  inode : ∀ file, system.file = some file → file.inode < system.inodes

/-- At most one process holds the lock. -/
def Exclusive (system : System) : Prop :=
  ∀ first second,
    (system.process first).locks ≠ [] →
      (system.process second).locks ≠ [] → first = second

/--
What the operating system promises: a process that takes part is alive, and a
process that is alive is never reported as gone.
-/
def Honest
    (alive : Nat → Prop)
    (system : System)
    (pid : Nat)
    (event : LockEvent) : Prop :=
  alive pid ∧
    ∀ holder, event = .read true → system.owner = some holder →
      ¬ alive holder.pid

/--
A lock that is removed because it was left behind is still the file that was
judged, or gone already.
-/
def Undisturbed
    (system : System)
    (pid : Nat)
    (event : LockEvent) : Prop :=
  ∀ attempt info judged,
    event = .unlink →
      (system.process pid).call = .unlinking attempt info judged →
      system.file = none ∨ system.file = judged

end System

end SinterDb.Lock
