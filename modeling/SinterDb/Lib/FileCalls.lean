import SinterDb.Lib.Effects
import SinterDb.Lib.FileTree

namespace SinterDb

/-!
# File-system calls

Calls on a file tree, any of which may fail.  A call that fails may have done a
part of its work: a removal may leave anything at its path, and a write may
have written the first bytes.  The paths that are written to are real paths.
-/

/-- The errors of file-system calls that programs tell apart, and the rest. -/
inductive Errno where
  | EEXIST
  | ENOENT
  | ENOTDIR
  | EISDIR
  | ENOTEMPTY
  | EPERM
  | EINVAL
  | ELOOP
  | other (code : Nat)
  deriving Repr, DecidableEq

/-- The error of a special file that cannot be opened. -/
def Errno.noDevice : Errno := .other 6

/-- A file-system call and the paths that it names. -/
inductive FileCall (Name : Type) where
  | read (path : List Name)
  | list (path : List Name)
  | stat (path : List Name)
  | mkdir (path : List Name)
  | create (path : List Name)
  | write (path : List Name)
  | sync (path : List Name)
  | link (source target : List Name)
  | unlink (path : List Name)
  | rmdir (path : List Name)
  | remove (path : List Name)
  | rename (source target : List Name)
  deriving Repr, DecidableEq

/-- How a call fails: its error, what a removal leaves, what was written. -/
structure Fault (Name : Type) where
  error : Errno
  left : Option (FileTree Name) := none
  written : Nat := 0
  deriving Repr

/-- Which calls fail; the calls of a run are counted. -/
abbrev Faults (Name : Type) := Nat → FileCall Name → Option (Fault Name)

/-- The file tree, and how many calls there have been. -/
structure FileState (Name : Type) where
  root : FileTree Name
  calls : Nat := 0
  deriving Repr

/-- What a program throws: the error of a call, or one of its own. -/
inductive FileFailure (Error : Type) where
  | io (error : Errno)
  | thrown (error : Error)
  deriving Repr, DecidableEq

/-- Programs over files. -/
abbrev FileProgram (Name Error Value : Type) :=
  Effect (FileState Name) (FileFailure Error) Value

namespace FileProgram

variable {Name Error Value : Type}

/-- A call, with what is left of the tree when it fails. -/
def call
    (faults : Faults Name)
    (label : FileCall Name)
    (broken : Fault Name → FileTree Name → FileTree Name)
    (effect : FileTree Name → Except Errno (FileTree Name)) :
    FileProgram Name Error Unit := fun state =>
  match faults state.calls label with
  | some fault =>
      (.error (.io fault.error),
        ⟨broken fault state.root, state.calls + 1⟩)
  | none =>
      match effect state.root with
      | .error error => (.error (.io error), ⟨state.root, state.calls + 1⟩)
      | .ok root => (.ok (), ⟨root, state.calls + 1⟩)

/-- A part of a program that only reads. -/
def reading
    (faults : Faults Name)
    (label : FileCall Name)
    (look : FileTree Name → Except (FileFailure Error) Value) :
    FileProgram Name Error Value := fun state =>
  match faults state.calls label with
  | some fault =>
      (.error (.io fault.error), ⟨state.root, state.calls + 1⟩)
  | none => (look state.root, ⟨state.root, state.calls + 1⟩)

/-- A question about the tree whose answer is never an error. -/
def asking (look : FileTree Name → Value) : FileProgram Name Error Value :=
  fun state => (.ok (look state.root), state)

variable [DecidableEq Name] (faults : Faults Name)

/-- What stands at a path becomes something else. -/
def put
    (path : List Name)
    (node : Option (FileTree Name))
    (root : FileTree Name) : FileTree Name :=
  root.update (fun _ => node) path

/-- `mkdirSync` of one directory; one that exists is fine. -/
def mkdirOne (path : List Name) : FileProgram Name Error Unit :=
  call faults (.mkdir path) (fun _ root => root) fun root =>
    match root.get path with
    | some _ =>
        if (root.stat path).any FileTree.isDirectory then
          .ok root
        else
          .error .EEXIST
    | none =>
        if root.hasDirectory path.dropLast then
          .ok (put path (some (.directory [])) root)
        else
          .error .ENOENT

/-- `mkdirSync` with `recursive`. -/
def mkdirSync (path : List Name) : FileProgram Name Error Unit :=
  Effect.forEach path.inits (mkdirOne faults)

/-- What `openSync` says for writing to what is neither a file nor missing. -/
def openError : Option (FileTree Name) → Option Errno
  | some (.directory _) => some .EISDIR
  | some (.link _) => some .ELOOP
  | some .special => some .noDevice
  | _ => none

/-- `openSync` for writing: the file is made, or emptied. -/
def openForWriting (path : List Name) : FileProgram Name Error Unit :=
  call faults (.create path) (fun _ root => root) fun root =>
    match openError (root.get path) with
    | some error => .error error
    | none =>
        if root.hasDirectory path.dropLast then
          .ok (put path (some (.file [])) root)
        else
          .error .ENOENT

/-- `openSync` with `wx`: the file must not exist. -/
def openExclusive (path : List Name) : FileProgram Name Error Unit :=
  call faults (.create path) (fun _ root => root) fun root =>
    match root.get path with
    | some _ => .error .EEXIST
    | none =>
        if root.hasDirectory path.dropLast then
          .ok (put path (some (.file [])) root)
        else
          .error .ENOENT

/-- A file with bytes after the ones that it has. -/
def appendBytes
    (bytes : Bytes) : Option (FileTree Name) → Option (FileTree Name)
  | some (.file old) => some (.file (old ++ bytes))
  | node => node

/-- `writeSync` until all bytes are written. -/
def writeBytes
    (path : List Name)
    (bytes : Bytes) : FileProgram Name Error Unit :=
  call faults (.write path)
    (fun fault root =>
      root.update (appendBytes (bytes.take fault.written)) path)
    fun root => .ok (root.update (appendBytes bytes) path)

/-- `fsyncSync` of a file, or of a directory. -/
def syncPath (path : List Name) : FileProgram Name Error Unit :=
  call faults (.sync path) (fun _ root => root) .ok

/-- `linkSync`. -/
def linkSync (source target : List Name) : FileProgram Name Error Unit :=
  call faults (.link source target) (fun _ root => root) fun root =>
    match root.get source, root.get target with
    | some (.directory _), none => .error .EPERM
    | some node, none =>
        if root.hasDirectory target.dropLast then
          .ok (put target (some node) root)
        else
          .error .ENOENT
    | none, _ => .error .ENOENT
    | some _, some _ => .error .EEXIST

/-- `unlinkSync` of a file, or of a link itself. -/
def unlinkSync (path : List Name) : FileProgram Name Error Unit :=
  call faults (.unlink path) (fun _ root => root) fun root =>
    match root.get path with
    | some node =>
        if node.isDirectory then
          .error .EPERM
        else
          .ok (put path none root)
    | none => .error .ENOENT

/-- `rmdirSync`. -/
def rmdirSync (path : List Name) : FileProgram Name Error Unit :=
  call faults (.rmdir path) (fun _ root => root) fun root =>
    match root.get path with
    | some (.directory []) => .ok (put path none root)
    | some (.directory _) => .error .ENOTEMPTY
    | some _ => .error .ENOTDIR
    | none => .error .ENOENT

/-- `rmSync` with `recursive` and `force`. -/
def rmSync (path : List Name) : FileProgram Name Error Unit :=
  call faults (.remove path)
    (fun fault root =>
      root.update (fun node => node.bind fun _ => fault.left) path)
    fun root => .ok (put path none root)

/-- Whether a node may take the place of what stands at a path. -/
def renameError :
    FileTree Name → Option (FileTree Name) → Option Errno
  | .directory _, none | .directory _, some (.directory []) => none
  | .directory _, some (.directory _) => some .ENOTEMPTY
  | .directory _, some _ => some .ENOTDIR
  | _, some (.directory _) => some .EISDIR
  | _, _ => none

/-- `renameSync`. -/
def renameSync (source target : List Name) : FileProgram Name Error Unit :=
  call faults (.rename source target) (fun _ root => root) fun root =>
    match root.get source with
    | none => .error .ENOENT
    | some node =>
        if source = target then
          .ok root
        else if source <+: target then
          .error .EINVAL
        else if !root.hasDirectory target.dropLast then
          .error .ENOENT
        else
          match renameError node (root.get target) with
          | some error => .error error
          | none => .ok (put target (some node) (put source none root))

end FileProgram

end SinterDb
