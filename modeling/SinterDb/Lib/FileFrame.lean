import SinterDb.Lib.FileCalls

namespace SinterDb.FileProgram

open Effect

/-!
# What file-system calls leave alone

A file, or a directory, stays in every call that does not name it, a directory above it
that is removed, or a directory above it that is moved.
-/

variable {Name Error Value : Type}

/-- A property of the tree, as a property of the state. -/
def OnRoot (holds : FileTree Name → Prop) (state : FileState Name) : Prop :=
  holds state.root

/-- What a call does to a tree, when it fails and when it does not. -/
theorem meets_call
    {faults : Faults Name}
    {label : FileCall Name}
    {broken : Fault Name → FileTree Name → FileTree Name}
    {effect : FileTree Name → Except Errno (FileTree Name)}
    {before returned thrown : FileTree Name → Prop}
    (fails : ∀ fault root, before root → thrown (broken fault root))
    (refuses :
      ∀ error root, before root → effect root = .error error → thrown root)
    (works :
      ∀ root after, before root → effect root = .ok after → returned after) :
    Meets (OnRoot before)
      (call faults label broken effect : FileProgram Name Error Unit)
      (fun _ => OnRoot returned) (fun _ => OnRoot thrown) := by
  intro state holds
  unfold call
  cases faults state.calls label with
  | some fault =>
      exact fails fault state.root holds
  | none =>
      dsimp only
      cases result : effect state.root with
      | error error =>
          exact refuses error state.root holds result
      | ok root =>
          exact works state.root root holds result

/-- A call keeps what its work and its failure keep. -/
theorem keeps_call
    {faults : Faults Name}
    {label : FileCall Name}
    {broken : Fault Name → FileTree Name → FileTree Name}
    {effect : FileTree Name → Except Errno (FileTree Name)}
    {holds : FileTree Name → Prop}
    (fails : ∀ fault root, holds root → holds (broken fault root))
    (works :
      ∀ root after, holds root → effect root = .ok after → holds after) :
    Keeps (OnRoot holds)
      (call faults label broken effect : FileProgram Name Error Unit) :=
  meets_call fails (fun _ _ held _ => held) works

/-- A call that no fault hits does its work or is refused. -/
theorem meets_call_free
    {faults : Faults Name}
    {label : FileCall Name}
    {broken : Fault Name → FileTree Name → FileTree Name}
    {effect : FileTree Name → Except Errno (FileTree Name)}
    {before : FileTree Name → Prop}
    {returned : Unit → FileState Name → Prop}
    {thrown : FileFailure Error → FileState Name → Prop}
    (free : ∀ count, faults count label = none)
    (refuses :
      ∀ error root count, before root → effect root = .error error →
        thrown (.io error) ⟨root, count⟩)
    (works :
      ∀ root after count, before root → effect root = .ok after →
        returned () ⟨after, count⟩) :
    Meets (OnRoot before)
      (call faults label broken effect : FileProgram Name Error Unit)
      returned thrown := by
  intro state holds
  unfold call
  rw [free]
  dsimp only
  cases result : effect state.root with
  | error error =>
      exact refuses error state.root _ holds result
  | ok root =>
      exact works state.root root _ holds result

/-- A call that no fault hits and that is not refused does its work. -/
theorem returns_call
    {faults : Faults Name}
    {label : FileCall Name}
    {broken : Fault Name → FileTree Name → FileTree Name}
    {effect : FileTree Name → Except Errno (FileTree Name)}
    {before returned : FileTree Name → Prop}
    (free : ∀ count, faults count label = none)
    (works :
      ∀ root, before root →
        ∃ after, effect root = .ok after ∧ returned after) :
    Returns (OnRoot before)
      (call faults label broken effect : FileProgram Name Error Unit)
      (fun _ => OnRoot returned) := by
  refine meets_call_free free ?_ ?_
  · intro error root count holds refused
    obtain ⟨after, done, -⟩ := works root holds
    rw [done] at refused
    cases refused
  · intro root after count holds done
    obtain ⟨other, found, known⟩ := works root holds
    rw [found] at done
    cases done
    exact known

/-- A part that only reads returns what it sees. -/
theorem meets_reading
    {faults : Faults Name}
    {label : FileCall Name}
    {look : FileTree Name → Except (FileFailure Error) Value}
    {before : FileTree Name → Prop}
    {returned : Value → Prop}
    (works :
      ∀ root value, before root → look root = .ok value → returned value) :
    Meets (OnRoot before) (reading faults label look)
      (fun value state => returned value ∧ OnRoot before state)
      (fun _ => OnRoot before) := by
  intro state holds
  unfold reading
  cases faults state.calls label with
  | some fault =>
      exact holds
  | none =>
      dsimp only
      cases result : look state.root with
      | error error =>
          exact holds
      | ok value =>
          exact ⟨works state.root value holds result, holds⟩

/-- A part that only reads and that no fault hits returns what it sees. -/
theorem returns_reading
    {faults : Faults Name}
    {label : FileCall Name}
    {look : FileTree Name → Except (FileFailure Error) Value}
    {before : FileTree Name → Prop}
    {returned : Value → Prop}
    (free : ∀ count, faults count label = none)
    (works :
      ∀ root, before root → ∃ value, look root = .ok value ∧ returned value) :
    Returns (OnRoot before) (reading faults label look)
      (fun value state => returned value ∧ OnRoot before state) := by
  intro state holds
  obtain ⟨value, result, known⟩ := works state.root holds
  unfold reading
  rw [free]
  dsimp only
  rw [result]
  exact ⟨known, holds⟩

/-- A part that only reads throws when a fault hits it. -/
theorem meets_reading_fault
    {faults : Faults Name}
    {label : FileCall Name}
    {fault : Fault Name}
    (hits : ∀ count, faults count label = some fault)
    (look : FileTree Name → Except (FileFailure Error) Value)
    (holds : FileTree Name → Prop) :
    Meets (OnRoot holds) (reading faults label look)
      (fun _ _ => False) (fun _ => OnRoot holds) := by
  intro state held
  unfold reading
  rw [hits]
  exact held

/-- What only reads keeps everything. -/
theorem keeps_reading
    (faults : Faults Name)
    (label : FileCall Name)
    (look : FileTree Name → Except (FileFailure Error) Value)
    (holds : FileTree Name → Prop) :
    Keeps (OnRoot holds) (reading faults label look) := by
  intro state held
  unfold reading
  cases faults state.calls label with
  | some fault =>
      exact held
  | none =>
      dsimp only
      cases look state.root <;> exact held

/-- A question keeps everything. -/
theorem keeps_asking
    (look : FileTree Name → Value)
    (holds : FileTree Name → Prop) :
    Keeps (OnRoot holds)
      (asking look : FileProgram Name Error Value) :=
  fun _ held => held

variable [DecidableEq Name]

/-- A file with these contents stands at a path, or a directory. -/
def Stands
    (path : List Name)
    (kind : Option Bytes)
    (root : FileTree Name) : Prop :=
  (root.get path).map FileTree.contents? = some (some kind)

variable {root : FileTree Name} {path other : List Name} {kind : Option Bytes}

/-- Where a directory stands there is a directory. -/
theorem stands_none_iff :
    Stands path none root ↔ root.hasDirectory path = true := by
  unfold Stands FileTree.hasDirectory
  cases root.get path with
  | none =>
      simp
  | some node =>
      cases node <;> simp [FileTree.contents?, FileTree.isDirectory]

/-- Where a file stands there is a file. -/
theorem stands_some_iff
    {bytes : Bytes} :
    Stands path (some bytes) root ↔ root.get path = some (.file bytes) := by
  unfold Stands
  cases root.get path with
  | none =>
      simp
  | some node =>
      cases node <;> simp [FileTree.contents?]

/-- Nothing stands below a path at which nothing stands. -/
theorem Stands.not_prefix_of_none
    (has : Stands other kind root)
    (missing : root.get path = none) :
    ¬ path <+: other := by
  rintro ⟨rest, rfl⟩
  rw [Stands, FileTree.get_append_of_none missing] at has
  cases has

/-- Nothing stands below what is no directory. -/
theorem Stands.not_prefix_of_leaf
    {node : FileTree Name}
    (has : Stands other kind root)
    (found : root.get path = some node)
    (leaf : node.isDirectory = false)
    (distinct : path ≠ other) :
    ¬ path <+: other := by
  rintro ⟨rest, rfl⟩
  rw [Stands, FileTree.get_append, found] at has
  cases rest with
  | nil =>
      simp at distinct
  | cons name rest =>
      simp [FileTree.get_cons_of_not_directory leaf] at has

/-- Nothing is in an empty directory. -/
theorem Stands.not_prefix_of_empty
    (has : Stands other kind root)
    (empty : root.get path = some (.directory []))
    (distinct : path ≠ other) :
    ¬ path <+: other := by
  rintro ⟨rest, rfl⟩
  rw [Stands, FileTree.get_append, empty] at has
  cases rest with
  | nil =>
      simp at distinct
  | cons name rest =>
      simp at has

/-- A change that is not above a file leaves it. -/
theorem Stands.update
    (has : Stands other kind root)
    (outside : ¬ path <+: other)
    (change : Option (FileTree Name) → Option (FileTree Name)) :
    Stands other kind (root.update change path) := by
  rw [Stands, FileTree.contents_get_update change root outside]
  exact has

variable (faults : Faults Name)

theorem keeps_mkdirOne (path : List Name) :
    Keeps (OnRoot (Stands other kind))
      (mkdirOne faults path : FileProgram Name Error Unit) := by
  refine keeps_call (fun _ _ has => has) ?_
  intro root after has done
  split at done
  · split at done
    · cases done
      exact has
    · cases done
  · next missing =>
      split at done
      · cases done
        exact has.update (has.not_prefix_of_none missing) _
      · cases done

theorem keeps_mkdirSync (path : List Name) :
    Keeps (OnRoot (Stands other kind))
      (mkdirSync faults path : FileProgram Name Error Unit) :=
  Keeps.forEach _ fun directory _ => keeps_mkdirOne faults directory

theorem keeps_openForWriting (outside : ¬ path <+: other) :
    Keeps (OnRoot (Stands other kind))
      (openForWriting faults path : FileProgram Name Error Unit) := by
  refine keeps_call (fun _ _ has => has) ?_
  intro root after has done
  split at done
  · cases done
  · split at done
    · cases done
      exact has.update outside _
    · cases done

theorem keeps_openExclusive (path : List Name) :
    Keeps (OnRoot (Stands other kind))
      (openExclusive faults path : FileProgram Name Error Unit) := by
  refine keeps_call (fun _ _ has => has) ?_
  intro root after has done
  split at done
  · cases done
  · next missing =>
      split at done
      · cases done
        exact has.update (has.not_prefix_of_none missing) _
      · cases done

/-- A file is not made where something stands. -/
theorem meets_openExclusive_blocked (above : path <+: other) :
    Meets (OnRoot (Stands other kind))
      (openExclusive faults path : FileProgram Name Error Unit)
      (fun _ => OnRoot fun _ => False)
      (fun _ => OnRoot (Stands other kind)) := by
  refine meets_call (fun _ _ has => has) (fun _ _ has _ => has) ?_
  intro root after has done
  split at done
  · cases done
  · next missing =>
      exact has.not_prefix_of_none missing above

/-- Nothing is linked to where something stands. -/
theorem meets_linkSync_blocked
    (source : List Name) :
    Meets (OnRoot (Stands other kind))
      (linkSync faults source other : FileProgram Name Error Unit)
      (fun _ => OnRoot fun _ => False)
      (fun _ => OnRoot (Stands other kind)) := by
  refine meets_call (fun _ _ has => has) (fun _ _ has _ => has) ?_
  intro root after has done
  split at done
  · cases done
  · next _ _ missing =>
      exact has.not_prefix_of_none missing (List.prefix_refl other)
  · cases done
  · cases done

theorem keeps_writeBytes
    (outside : ¬ path <+: other)
    (contents : Bytes) :
    Keeps (OnRoot (Stands other kind))
      (writeBytes faults path contents : FileProgram Name Error Unit) := by
  refine keeps_call (fun _ _ has => has.update outside _) ?_
  intro root after has done
  cases done
  exact has.update outside _

omit [DecidableEq Name] in
theorem keeps_syncPath
    (path : List Name)
    (holds : FileTree Name → Prop) :
    Keeps (OnRoot holds)
      (syncPath faults path : FileProgram Name Error Unit) := by
  refine keeps_call (fun _ _ held => held) ?_
  intro root after held done
  cases done
  exact held

theorem keeps_linkSync (source target : List Name) :
    Keeps (OnRoot (Stands other kind))
      (linkSync faults source target : FileProgram Name Error Unit) := by
  refine keeps_call (fun _ _ has => has) ?_
  intro root after has done
  split at done
  · cases done
  · next _ _ missing =>
      split at done
      · cases done
        exact has.update (has.not_prefix_of_none missing) _
      · cases done
  · cases done
  · cases done

theorem keeps_unlinkSync (distinct : path ≠ other) :
    Keeps (OnRoot (Stands other kind))
      (unlinkSync faults path : FileProgram Name Error Unit) := by
  refine keeps_call (fun _ _ has => has) ?_
  intro root after has done
  split at done
  · next node found =>
      obtain ⟨leaf, done⟩ := Result.else_of_ok done
      cases done
      refine has.update (has.not_prefix_of_leaf found ?_ distinct) _
      exact Bool.not_eq_true _ ▸ leaf
  · cases done

/-- A directory is not unlinked. -/
theorem keeps_unlinkSync_directory (path : List Name) :
    Keeps (OnRoot (Stands other none))
      (unlinkSync faults path : FileProgram Name Error Unit) := by
  by_cases same : path = other
  · subst same
    refine keeps_call (fun _ _ has => has) ?_
    intro root after has done
    split at done
    · next node found =>
        obtain ⟨leaf, done⟩ := Result.else_of_ok done
        have directory := stands_none_iff.mp has
        simp [FileTree.hasDirectory, found, leaf] at directory
    · cases done
  · exact keeps_unlinkSync faults same

theorem keeps_rmdirSync (distinct : path ≠ other) :
    Keeps (OnRoot (Stands other kind))
      (rmdirSync faults path : FileProgram Name Error Unit) := by
  refine keeps_call (fun _ _ has => has) ?_
  intro root after has done
  split at done
  · next empty =>
      cases done
      exact has.update (has.not_prefix_of_empty empty distinct) _
  · cases done
  · cases done
  · cases done

theorem keeps_rmSync (outside : ¬ path <+: other) :
    Keeps (OnRoot (Stands other kind))
      (rmSync faults path : FileProgram Name Error Unit) := by
  refine keeps_call (fun _ _ has => has.update outside _) ?_
  intro root after has done
  cases done
  exact has.update outside _

/-- What is missing is missing after a removal. -/
theorem keeps_unlinkSync_missing (path : List Name) :
    Keeps (OnRoot fun root => root.get other = none)
      (unlinkSync faults path : FileProgram Name Error Unit) := by
  refine keeps_call (fun _ _ missing => missing) ?_
  intro root after missing done
  split at done
  · obtain ⟨-, done⟩ := Result.else_of_ok done
    cases done
    rcases FileTree.get_remove root path other with gone | same
    · exact gone
    · rw [missing] at same
      exact Option.map_eq_none_iff.mp same
  · cases done

/-- What is removed is missing. -/
theorem returns_rmSync
    (free : ∀ count, faults count (.remove path) = none)
    (below : path ≠ []) :
    Returns (OnRoot fun _ => True)
      (rmSync faults path : FileProgram Name Error Unit)
      (fun _ => OnRoot fun root => root.get path = none) := by
  refine returns_call free ?_
  intro root _
  exact ⟨_, rfl, FileTree.get_remove_self root below⟩

/-- What is moved is missing where it was. -/
theorem meets_renameSync_missing
    {source target : List Name}
    (below : source ≠ [])
    (beside : ¬ target <+: source) :
    Meets (OnRoot fun _ => True)
      (renameSync faults source target : FileProgram Name Error Unit)
      (fun _ => OnRoot fun root => root.get source = none)
      (fun _ => OnRoot fun _ => True) := by
  refine meets_call (fun _ _ _ => trivial) (fun _ _ _ _ => trivial) ?_
  intro root after _ done
  split at done
  · cases done
  · next node found =>
      split at done
      · next same =>
          exact absurd (same ▸ List.prefix_refl _) beside
      · split at done
        · cases done
        · split at done
          · cases done
          · split at done
            · cases done
            · cases done
              have kept := FileTree.contents_get_update
                (fun _ => some node) (put source none root) beside
              have gone : (put source none root).get source = none :=
                FileTree.get_remove_self root below
              rw [gone] at kept
              exact Option.map_eq_none_iff.mp kept

/-- A target that may be replaced has no other file below it. -/
theorem Stands.not_prefix_of_renamed
    {node : FileTree Name}
    (has : Stands other kind root)
    (free : renameError node (root.get path) = none)
    (distinct : path ≠ other) :
    ¬ path <+: other := by
  cases target : root.get path with
  | none =>
      exact has.not_prefix_of_none target
  | some found =>
      cases found with
      | directory entries =>
          cases entries with
          | nil =>
              exact has.not_prefix_of_empty target distinct
          | cons entry entries =>
              rw [target] at free
              cases node <;> cases free
      | _ =>
          exact has.not_prefix_of_leaf target rfl distinct

theorem keeps_renameSync
    {source target : List Name}
    (outside : ¬ source <+: other)
    (distinct : target ≠ other) :
    Keeps (OnRoot (Stands other kind))
      (renameSync faults source target : FileProgram Name Error Unit) := by
  refine keeps_call (fun _ _ has => has) ?_
  intro root after has done
  split at done
  · cases done
  · split at done
    · cases done
      exact has
    · split at done
      · cases done
      · split at done
        · cases done
        · split at done
          · cases done
          · next free =>
              cases done
              have below := has.not_prefix_of_renamed free distinct
              exact (has.update outside _).update below _

end SinterDb.FileProgram
