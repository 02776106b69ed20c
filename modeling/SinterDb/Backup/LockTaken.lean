import SinterDb.Backup.LockFiles

namespace SinterDb.Backup

open Unicode
open Effect
open FileProgram

/-!
# Taking the lock

Where no directory is in the way, the lock is taken: a lock that is there is
removed when it can neither be read nor examined.
-/

/-- The lock file can neither be read nor examined; nothing else fails. -/
def lockFaults (directory : Path) : Faults JsString := fun _ call =>
  if call = .read (lockPath directory) ∨ call = .stat (lockPath directory) then
    some { error := .other 5 }
  else
    none

/-- Every other call does its work. -/
theorem lockFaults_free
    {directory : Path}
    {call : FileCall JsString}
    (unread : call ≠ .read (lockPath directory))
    (unexamined : call ≠ .stat (lockPath directory))
    (count : Nat) :
    lockFaults directory count call = none :=
  if_neg (not_or_intro unread unexamined)

section

variable (platform : Platform) (caller : Caller) (directory : Path)

/-- A directory without a private file of the caller, and what its lock is. -/
structure LockAt
    (lock : Option (Option (Option Bytes)))
    (root : FileTree JsString) : Prop where
  exists_directory : root.hasDirectory directory = true
  unpublished : root.get (privatePath caller directory) = none
  lock_eq : (root.get (lockPath directory)).map FileTree.contents? = lock

/-- The same while the private file is there. -/
structure LockWritten
    (lock : Option (Option (Option Bytes)))
    (root : FileTree JsString) : Prop where
  exists_directory : root.hasDirectory directory = true
  written :
    ∃ bytes, root.get (privatePath caller directory) = some (.file bytes)
  lock_eq : (root.get (lockPath directory)).map FileTree.contents? = lock

variable {caller directory} {root : FileTree JsString}
variable {lock : Option (Option (Option Bytes))}

/-- A directory stays when something in it changes. -/
theorem hasDirectory_update
    (exists_directory : root.hasDirectory directory = true)
    (change : Option (FileTree JsString) → Option (FileTree JsString))
    (name : JsString) :
    (root.update change (directory ++ [name])).hasDirectory directory =
      true := by
  rw [← stands_none_iff] at exists_directory ⊢
  refine exists_directory.update ?_ change
  intro below
  have := below.length_le
  simp at this

/-- The lock stays when the private file changes. -/
theorem lock_update
    (lock_eq : (root.get (lockPath directory)).map FileTree.contents? = lock)
    (change : Option (FileTree JsString) → Option (FileTree JsString)) :
    ((root.update change (privatePath caller directory)).get
        (lockPath directory)).map FileTree.contents? = lock := by
  rw [FileTree.contents_get_update change root (not_prefix_lockPath caller)]
  exact lock_eq

/-- The private file is made. -/
theorem LockAt.written
    (at_lock : LockAt caller directory lock root)
    (bytes : Bytes) :
    LockWritten caller directory lock
      (put (privatePath caller directory) (some (.file bytes)) root) where
  exists_directory :=
    hasDirectory_update at_lock.exists_directory _ _
  written :=
    ⟨bytes, FileTree.get_update_self _ at_lock.exists_directory _⟩
  lock_eq := lock_update at_lock.lock_eq _

/-- The private file is written to. -/
theorem LockWritten.append
    (written : LockWritten caller directory lock root)
    (bytes : Bytes) :
    LockWritten caller directory lock
      (root.update (appendBytes bytes) (privatePath caller directory)) where
  exists_directory :=
    hasDirectory_update written.exists_directory _ _
  written := by
    obtain ⟨old, found⟩ := written.written
    refine ⟨old ++ bytes, ?_⟩
    rw [privatePath, FileTree.get_update_self _ written.exists_directory,
      ← privatePath, found]
    rfl
  lock_eq := lock_update written.lock_eq _

/-- The private file is removed. -/
theorem LockWritten.removed
    (written : LockWritten caller directory lock root) :
    LockAt caller directory lock
      (put (privatePath caller directory) none root) where
  exists_directory :=
    hasDirectory_update written.exists_directory _ _
  unpublished :=
    FileTree.get_update_self _ written.exists_directory _
  lock_eq := lock_update written.lock_eq _

variable (caller directory)

theorem returns_openExclusive :
    Returns (OnRoot (LockAt caller directory lock))
      (openExclusive (lockFaults directory) (privatePath caller directory) :
        BackupProgram Unit)
      (fun _ => OnRoot (LockWritten caller directory lock)) := by
  refine returns_call (lockFaults_free (by simp) (by simp)) ?_
  intro root at_lock
  have parent : (privatePath caller directory).dropLast = directory := by
    simp [privatePath]
  simp only [at_lock.unpublished, parent, at_lock.exists_directory, if_true]
  exact ⟨_, rfl, at_lock.written []⟩

theorem returns_writeBytes (bytes : Bytes) :
    Returns (OnRoot (LockWritten caller directory lock))
      (writeBytes (lockFaults directory) (privatePath caller directory) bytes :
        BackupProgram Unit)
      (fun _ => OnRoot (LockWritten caller directory lock)) := by
  refine returns_call (lockFaults_free (by simp) (by simp)) ?_
  intro root written
  exact ⟨_, rfl, written.append bytes⟩

theorem returns_syncPath :
    Returns (OnRoot (LockWritten caller directory lock))
      (syncPath (lockFaults directory) (privatePath caller directory) :
        BackupProgram Unit)
      (fun _ => OnRoot (LockWritten caller directory lock)) := by
  refine returns_call (lockFaults_free (by simp) (by simp)) ?_
  intro root written
  exact ⟨_, rfl, written⟩

theorem returns_unlinkSync :
    Returns (OnRoot (LockWritten caller directory lock))
      (unlinkSync (lockFaults directory) (privatePath caller directory) :
        BackupProgram Unit)
      (fun _ => OnRoot (LockAt caller directory lock)) := by
  refine returns_call (lockFaults_free (by simp) (by simp)) ?_
  intro root written
  obtain ⟨bytes, found⟩ := written.written
  simp only [found, FileTree.isDirectory, Bool.false_eq_true, if_false]
  exact ⟨_, rfl, written.removed⟩

/-- The private file is linked to a lock path that is free. -/
theorem returns_linkSync :
    Returns (OnRoot (LockWritten caller directory none))
      (linkSync (lockFaults directory) (privatePath caller directory)
        (lockPath directory) : BackupProgram Unit)
      (fun _ => OnRoot fun _ => True) := by
  refine returns_call (lockFaults_free (by simp) (by simp)) ?_
  intro root written
  obtain ⟨bytes, found⟩ := written.written
  have parent : (lockPath directory).dropLast = directory := by
    simp [lockPath]
  have missing : root.get (lockPath directory) = none :=
    Option.map_eq_none_iff.mp written.lock_eq
  simp only [found, missing, parent, written.exists_directory, if_true]
  exact ⟨_, rfl, trivial⟩

/-- It is not linked to one that is taken. -/
theorem meets_linkSync_taken (kind : Option (Option Bytes)) :
    Meets (OnRoot (LockWritten caller directory (some kind)))
      (linkSync (lockFaults directory) (privatePath caller directory)
        (lockPath directory) : BackupProgram Unit)
      (fun _ _ => False)
      (fun error state =>
        error = .io .EEXIST ∧
          OnRoot (LockWritten caller directory (some kind)) state) := by
  have exists_both :
      ∀ root, LockWritten caller directory (some kind) root →
        ∃ bytes node,
          root.get (privatePath caller directory) = some (.file bytes) ∧
            root.get (lockPath directory) = some node := by
    intro root written
    obtain ⟨bytes, found⟩ := written.written
    obtain ⟨node, present, -⟩ := Option.map_eq_some_iff.mp written.lock_eq
    exact ⟨bytes, node, found, present⟩
  refine meets_call_free (lockFaults_free (by simp) (by simp)) ?_ ?_
  · intro error root count written refused
    obtain ⟨bytes, node, found, present⟩ := exists_both root written
    simp only [found, present] at refused
    cases refused
    exact ⟨rfl, written⟩
  · intro root after count written done
    obtain ⟨bytes, node, found, present⟩ := exists_both root written
    simp only [found, present] at done
    cases done

/-- A free lock is published. -/
theorem returns_publishLock :
    Returns (OnRoot (LockAt caller directory none))
      (publishLock platform caller (lockFaults directory) directory)
      (fun _ _ => True) := by
  refine (returns_openExclusive caller directory).bind fun _ => ?_
  refine Meets.andFinally
    (((returns_writeBytes caller directory _).bind fun _ =>
      (returns_syncPath caller directory).bind fun _ =>
        returns_linkSync caller directory))
    (fun _ => ?_) (fun _ _ absurd => absurd.elim)
  exact ((meets_any _).quietly).mono (fun _ _ => trivial) (fun _ _ => id)
    fun _ _ => id

/-- A lock that is taken is found to be there. -/
theorem meets_publishLock_taken (kind : Option (Option Bytes)) :
    Meets (OnRoot (LockAt caller directory (some kind)))
      (publishLock platform caller (lockFaults directory) directory)
      (fun _ _ => False)
      (fun error state =>
        error = .io .EEXIST ∧
          OnRoot (LockAt caller directory (some kind)) state) := by
  refine (returns_openExclusive caller directory).bind fun _ => ?_
  refine Meets.andFinally
    (((returns_writeBytes caller directory _).bind fun _ =>
      (returns_syncPath caller directory).bind fun _ =>
        meets_linkSync_taken caller directory kind))
    (fun _ _ absurd => absurd.elim) (fun error => ?_)
  rintro state ⟨code, written⟩
  have removed :
      Returns (OnRoot (LockWritten caller directory (some kind)))
        (quietly
          (unlinkSync (lockFaults directory) (privatePath caller directory) :
            BackupProgram Unit))
        (fun _ => OnRoot (LockAt caller directory (some kind))) :=
    (Meets.mono (returns_unlinkSync caller directory) (fun _ => id)
      (fun _ _ => id) fun _ _ absurd => absurd.elim).quietly
  exact (removed.mono (fun _ => id) (fun _ _ known => ⟨code, known⟩)
    fun _ _ absurd => absurd.elim) state written

/-- An attempt takes a free lock. -/
theorem returns_tryPublish :
    Returns (OnRoot (LockAt caller directory none))
      (tryPublish platform caller (lockFaults directory) directory)
      (fun taken _ => taken = true) := by
  have published :
      Returns (OnRoot (LockAt caller directory none))
        (do
          publishLock platform caller (lockFaults directory) directory
          pure true)
        (fun taken _ => taken = true) :=
    (returns_publishLock platform caller directory).bind fun _ =>
      meets_pure fun _ _ => rfl
  exact Meets.orCatch published fun _ _ absurd => absurd.elim

/-- An attempt does not take a lock that is taken. -/
theorem returns_tryPublish_taken (kind : Option (Option Bytes)) :
    Returns (OnRoot (LockAt caller directory (some kind)))
      (tryPublish platform caller (lockFaults directory) directory)
      (fun taken state =>
        taken = false ∧
          OnRoot (LockAt caller directory (some kind)) state) := by
  refine Meets.orCatch
    ((meets_publishLock_taken platform caller directory kind).bind
      fun _ _ absurd => absurd.elim) fun error => ?_
  rintro state ⟨rfl, known⟩
  exact ⟨rfl, known⟩

/-- The owner of the lock is not read. -/
theorem returns_readLock (holds : FileTree JsString → Prop) :
    Returns (OnRoot holds)
      (readLock platform (lockFaults directory) directory)
      (fun holder state => holder = none ∧ OnRoot holds state) :=
  (meets_reading_fault (fun _ => if_pos (.inl rfl)) _ holds).mono
    (fun _ => id) (fun _ _ absurd => absurd.elim) (fun _ _ => id)
    |>.orCatch fun _ => meets_pure fun _ held => ⟨rfl, held⟩

/-- A lock without an owner is not fresh. -/
theorem returns_refuseHeld (holds : FileTree JsString → Prop) :
    Returns (OnRoot holds)
      (refuseHeld caller (lockFaults directory) directory none)
      (fun _ => OnRoot holds) := by
  have examined :
      Returns (OnRoot holds)
        (lockIsFresh caller (lockFaults directory) directory)
        (fun fresh state => fresh = false ∧ OnRoot holds state) :=
    (meets_reading_fault (fun _ => if_pos (.inr rfl)) _ holds).mono
      (fun _ => id) (fun _ _ absurd => absurd.elim) (fun _ _ => id)
      |>.orCatch fun _ => meets_pure fun _ held => ⟨rfl, held⟩
  refine examined.bind fun fresh => ?_
  rintro state ⟨rfl, held⟩
  exact held

/-- A lock that is no directory is removed. -/
theorem returns_unlinkIfPresent
    {kind : Option (Option Bytes)}
    (leaf : kind ≠ some none) :
    Returns (OnRoot (LockAt caller directory (some kind)))
      (unlinkIfPresent (lockFaults directory) (lockPath directory))
      (fun _ => OnRoot (LockAt caller directory none)) := by
  have removed :
      Returns (OnRoot (LockAt caller directory (some kind)))
        (unlinkSync (lockFaults directory) (lockPath directory) :
          BackupProgram Unit)
        (fun _ => OnRoot (LockAt caller directory none)) := by
    refine returns_call (lockFaults_free (by simp) (by simp)) ?_
    intro root at_lock
    obtain ⟨node, found, same⟩ := Option.map_eq_some_iff.mp at_lock.lock_eq
    have file : node.isDirectory = false := by
      cases node with
      | directory entries =>
          exact absurd same.symm leaf
      | _ =>
          rfl
    simp only [found, file, Bool.false_eq_true, if_false]
    refine ⟨_, rfl, ?_⟩
    exact
      { exists_directory :=
          hasDirectory_update at_lock.exists_directory _ _
        unpublished := by
          rcases FileTree.get_remove root (lockPath directory)
            (privatePath caller directory) with gone | same
          · exact gone
          · rw [at_lock.unpublished] at same
            exact Option.map_eq_none_iff.mp same
        lock_eq := by
          rw [put, lockPath,
            FileTree.get_update_self _ at_lock.exists_directory]
          rfl }
  exact Meets.orCatch removed fun _ _ absurd => absurd.elim

/-- The attempts take a lock that is free or no directory. -/
theorem returns_acquireLoop
    (attempts : Nat)
    (leaf : lock ≠ some (some none)) :
    Returns (OnRoot (LockAt caller directory lock))
      (acquireLoop platform caller (lockFaults directory) directory
        (attempts + 2))
      (fun _ _ => True) := by
  have free : ∀ attempts,
      Returns (OnRoot (LockAt caller directory none))
        (acquireLoop platform caller (lockFaults directory) directory
          (attempts + 1))
        (fun _ _ => True) := by
    intro attempts
    refine (returns_tryPublish platform caller directory).bind fun taken => ?_
    rintro state rfl
    trivial
  cases lock with
  | none =>
      exact free (attempts + 1)
  | some kind =>
      refine (returns_tryPublish_taken platform caller directory _).bind
        fun taken => ?_
      rintro state ⟨rfl, known⟩
      have again :
          Returns (OnRoot (LockAt caller directory (some kind)))
            (do
              let holder ← readLock platform (lockFaults directory) directory
              refuseHeld caller (lockFaults directory) directory holder
              unlinkIfPresent (lockFaults directory) (lockPath directory)
              acquireLoop platform caller (lockFaults directory) directory
                (attempts + 1))
            (fun _ _ => True) := by
        refine (returns_readLock platform directory _).bind fun holder => ?_
        rintro state ⟨rfl, known⟩
        refine ((returns_refuseHeld caller directory _).bind fun _ => ?_)
          state known
        have removed := returns_unlinkIfPresent caller directory
          fun same => leaf (congrArg some same)
        exact removed.bind fun _ => free attempts
      exact again state known

/-- No directory is in the way of the lock. -/
structure Unblocked (root : FileTree JsString) : Prop where
  exists_directory : root.hasDirectory directory = true
  lock_file : ¬ Stands (lockPath directory) none root
  private_file : ¬ Stands (privatePath caller directory) none root

variable {caller directory}

/-- A path that is no directory is none after a removal. -/
theorem not_stands_remove
    {path : Path}
    (file : ¬ Stands path none root)
    (removed : Path) :
    ¬ Stands path none (put removed none root) := by
  rcases FileTree.get_remove root removed path with gone | same
  · simp [Stands, put, gone]
  · rw [Stands, put, same]
    exact file

/-- Nothing is in the way after the removal of a file in the directory. -/
theorem Unblocked.remove
    (unblocked : Unblocked caller directory root)
    (name : JsString) :
    Unblocked caller directory (put (directory ++ [name]) none root) where
  exists_directory := hasDirectory_update unblocked.exists_directory _ _
  lock_file := not_stands_remove unblocked.lock_file _
  private_file := not_stands_remove unblocked.private_file _

/-- The removal of a file in the directory, as far as the lock goes. -/
theorem returns_sweep_unlink (name : JsString) (gone : Prop) :
    Returns
      (OnRoot fun root =>
        Unblocked caller directory root ∧
          (gone → root.get (privatePath caller directory) = none))
      (quietly
        (unlinkSync (lockFaults directory) (directory ++ [name]) :
          BackupProgram Unit))
      (fun _ =>
        OnRoot fun root =>
          Unblocked caller directory root ∧
            (gone ∨ name = privateName caller.pid caller.nonce.text →
              root.get (privatePath caller directory) = none)) := by
  have free := @lockFaults_free directory (.unlink (directory ++ [name]))
    (by simp) (by simp)
  refine Meets.quietly (meets_call_free free ?_ ?_)
  · rintro error root count ⟨unblocked, before⟩ refused
    refine ⟨unblocked, ?_⟩
    rintro (already | rfl)
    · exact before already
    · split at refused
      · next node found =>
          split at refused
          · next directory_there =>
              refine absurd (stands_none_iff.mpr ?_) unblocked.private_file
              rw [FileTree.hasDirectory, privatePath, found]
              exact directory_there
          · cases refused
      · next missing =>
          exact missing
  · rintro root after count ⟨unblocked, before⟩ done
    split at done
    · obtain ⟨-, done⟩ := Result.else_of_ok done
      cases done
      refine ⟨unblocked.remove name, ?_⟩
      rintro (already | rfl)
      · rcases FileTree.get_remove root (directory ++ [name])
          (privatePath caller directory) with removed | same
        · exact removed
        · rw [before already] at same
          exact Option.map_eq_none_iff.mp same
      · exact FileTree.get_update_self _ unblocked.exists_directory _
    · cases done

/-- The sweep removes the private file of the caller. -/
theorem returns_sweep_loop
    (names : List JsString)
    (gone : Prop) :
    Returns
      (OnRoot fun root =>
        Unblocked caller directory root ∧
          (gone → root.get (privatePath caller directory) = none))
      (forEach names fun name =>
        match privateFileOwner name with
        | none => pure ()
        | some pid =>
            if pid = caller.pid ∨ caller.gone pid then
              quietly (unlinkSync (lockFaults directory) (directory ++ [name]))
            else
              pure () : BackupProgram Unit)
      (fun _ =>
        OnRoot fun root =>
          Unblocked caller directory root ∧
            (gone ∨ privateName caller.pid caller.nonce.text ∈ names →
              root.get (privatePath caller directory) = none)) := by
  induction names generalizing gone with
  | nil =>
      refine meets_pure fun state known => ⟨known.1, ?_⟩
      rintro (already | absurd)
      · exact known.2 already
      · cases absurd
  | cons name names ih =>
      have round :
          Returns
            (OnRoot fun root =>
              Unblocked caller directory root ∧
                (gone → root.get (privatePath caller directory) = none))
            (match privateFileOwner name with
              | none => pure ()
              | some pid =>
                  if pid = caller.pid ∨ caller.gone pid then
                    quietly
                      (unlinkSync (lockFaults directory) (directory ++ [name]))
                  else
                    pure () : BackupProgram Unit)
            (fun _ =>
              OnRoot fun root =>
                Unblocked caller directory root ∧
                  (gone ∨ name = privateName caller.pid caller.nonce.text →
                    root.get (privatePath caller directory) = none)) := by
        by_cases own : name = privateName caller.pid caller.nonce.text
        · subst own
          rw [privateFileOwner_privateName]
          dsimp only
          rw [if_pos (.inl rfl)]
          exact returns_sweep_unlink _ gone
        · split
          · exact meets_pure fun _ known =>
              ⟨known.1, fun either => known.2 (either.resolve_right own)⟩
          · split
            · exact returns_sweep_unlink name gone
            · exact meets_pure fun _ known =>
                ⟨known.1, fun either => known.2 (either.resolve_right own)⟩
      refine round.bind fun _ => (ih _).mono (fun _ => id) ?_ fun _ _ => id
      rintro _ state ⟨unblocked, known⟩
      refine ⟨unblocked, fun either => known ?_⟩
      rcases either with already | member
      · exact .inl (.inl already)
      · rcases List.mem_cons.mp member with same | later
        · exact .inl (.inr same.symm)
        · exact .inr later

/-- The sweep leaves no private file of the caller. -/
theorem returns_sweepPrivateFiles :
    Returns
      (OnRoot (Unblocked caller directory))
      (sweepPrivateFiles caller (lockFaults directory) directory)
      (fun _ =>
        OnRoot fun root =>
          Unblocked caller directory root ∧
            root.get (privatePath caller directory) = none) := by
  intro state unblocked
  obtain ⟨entries, found⟩ :=
    FileTree.exists_entries unblocked.exists_directory
  have listed :
      Returns (OnRoot fun root => root = state.root)
        ((readdirSync (lockFaults directory) directory).orCatch
          fun _ => pure [])
        (fun names after =>
          names = entries.map Prod.fst ∧
            OnRoot (fun root => root = state.root) after) := by
    refine Meets.orCatch (returns_reading
      (lockFaults_free (by simp) (by simp)) ?_) fun _ _ absurd => absurd.elim
    rintro root rfl
    exact ⟨_, by rw [found], rfl⟩
  have swept :
      Returns (OnRoot fun root => root = state.root)
        (sweepPrivateFiles caller (lockFaults directory) directory)
        (fun _ =>
          OnRoot fun root =>
            Unblocked caller directory root ∧
              root.get (privatePath caller directory) = none) := by
    refine listed.bind fun names => ?_
    rintro after ⟨rfl, same⟩
    have start :
        OnRoot
          (fun root =>
            Unblocked caller directory root ∧
              (state.root.get (privatePath caller directory) = none →
                root.get (privatePath caller directory) = none)) after := by
      unfold OnRoot at same ⊢
      rw [same]
      exact ⟨unblocked, id⟩
    refine ((returns_sweep_loop _ _).mono (fun _ => id) ?_ fun _ _ => id)
      after start
    rintro _ final ⟨clear, known⟩
    refine ⟨clear, known ?_⟩
    by_cases missing : state.root.get (privatePath caller directory) = none
    · exact .inl missing
    · exact .inr (FileTree.mem_names_of_get found missing)
  exact swept state rfl

/-- The lock is taken where nothing is in the way. -/
theorem returns_acquireDirectoryLock :
    Returns
      (OnRoot (Unblocked caller directory))
      (acquireDirectoryLock platform caller (lockFaults directory) directory)
      (fun _ _ => True) := by
  refine returns_sweepPrivateFiles.bind fun _ => ?_
  rintro state ⟨unblocked, unpublished⟩
  have at_lock :
      LockAt caller directory
        ((state.root.get (lockPath directory)).map FileTree.contents?)
        state.root :=
    ⟨unblocked.exists_directory, unpublished, rfl⟩
  exact returns_acquireLoop platform caller directory 1 unblocked.lock_file
    state at_lock

end

end SinterDb.Backup
