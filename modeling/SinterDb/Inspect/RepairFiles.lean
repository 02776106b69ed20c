import SinterDb.Inspect.OpenedLog
import SinterDb.Inspect.Repair

namespace SinterDb

open Wal

/-!
# The files that a repair leaves

The segments of a log in the order of their names, after some of them have been
moved away or one has been cut off.
-/

namespace Wal

/-- A segment comes before another one by its name. -/
def NamedBefore (first second : SegmentFile) : Prop :=
  first.nameLsn < second.nameLsn

/-- Sorted files with different names are named in strict order. -/
theorem sortedFiles_pairwise
    {files : List SegmentFile}
    (distinct : (files.map SegmentFile.nameLsn).Nodup) :
    (sortedFiles files).Pairwise NamedBefore := by
  have total :
      Std.Total fun first second : SegmentFile =>
        first.nameLsn ≤ second.nameLsn :=
    ⟨fun first second => Nat.le_total _ _⟩
  have trans :
      IsTrans SegmentFile fun first second =>
        first.nameLsn ≤ second.nameLsn :=
    ⟨fun _ _ _ => Nat.le_trans⟩
  have sorted :=
    List.pairwise_insertionSort
      (fun first second : SegmentFile => first.nameLsn ≤ second.nameLsn)
      files
  have different :
      (sortedFiles files).Pairwise fun first second =>
        first.nameLsn ≠ second.nameLsn := by
    rw [← List.pairwise_map (f := SegmentFile.nameLsn)]
    exact ((List.perm_insertionSort _ files).map _).nodup_iff.mpr distinct
  refine (sorted.and different).imp ?_
  rintro first second ⟨least, apart⟩
  exact lt_of_le_of_ne least apart

/-- The order of the names determines the sorted list. -/
theorem sortedFiles_eq
    {files ordered : List SegmentFile}
    (sameFiles : ordered.Perm files)
    (inOrder : ordered.Pairwise NamedBefore) :
    sortedFiles files = ordered := by
  have antisymmetric : Std.Antisymm NamedBefore :=
    ⟨fun first second before after => absurd before (Nat.lt_asymm after)⟩
  have distinct : (files.map SegmentFile.nameLsn).Nodup := by
    refine (sameFiles.map _).nodup_iff.mp ?_
    rw [List.Nodup, List.pairwise_map]
    exact inOrder.imp fun before => Nat.ne_of_lt before
  exact
    ((List.perm_insertionSort _ files).trans sameFiles.symm).eq_of_pairwise'
      (sortedFiles_pairwise distinct) inOrder

/-- The segments that are left when some have been removed. -/
def unlinkAll (files : List SegmentFile) (names : List Nat) :
    List SegmentFile :=
  files.filter fun file => !names.contains file.nameLsn

/-- Removing one file and then others. -/
theorem unlinkAll_cons
    (files : List SegmentFile)
    (name : Nat)
    (names : List Nat) :
    unlinkAll (unlink files name) names = unlinkAll files (name :: names) := by
  unfold unlinkAll unlink
  rw [List.filter_filter]
  refine List.filter_congr fun file _ => ?_
  by_cases isName : file.nameLsn = name <;> simp [isName]

/-- Only the files of the front are removed from a sorted list. -/
theorem unlinkAll_append
    {front back : List SegmentFile}
    (distinct : ((front ++ back).map SegmentFile.nameLsn).Nodup) :
    unlinkAll (front ++ back) (front.map SegmentFile.nameLsn) = back ∧
      unlinkAll (front ++ back) (back.map SegmentFile.nameLsn) = front := by
  rw [List.map_append, List.nodup_append] at distinct
  obtain ⟨_, _, apart⟩ := distinct
  unfold unlinkAll
  rw [List.filter_append, List.filter_append]
  have inFront :
      ∀ file ∈ front, file.nameLsn ∉ back.map SegmentFile.nameLsn :=
    fun file member inBack =>
      apart _ (List.mem_map_of_mem member) _ inBack rfl
  have inBack :
      ∀ file ∈ back, file.nameLsn ∉ front.map SegmentFile.nameLsn :=
    fun file member inFront =>
      apart _ inFront _ (List.mem_map_of_mem member) rfl
  constructor
  · rw [List.filter_eq_nil_iff.mpr, List.nil_append, List.filter_eq_self]
    · intro file member
      simpa using inBack file member
    · intro file member
      simpa using ⟨file, member, rfl⟩
  · rw [List.filter_eq_self.mpr, List.filter_eq_nil_iff.mpr, List.append_nil]
    · intro file member
      simpa using ⟨file, member, rfl⟩
    · intro file member
      simpa using inFront file member

/-- Names of sorted files are different if those of the files are. -/
theorem nodup_sortedFiles
    {files : List SegmentFile}
    (distinct : (files.map SegmentFile.nameLsn).Nodup) :
    ((sortedFiles files).map SegmentFile.nameLsn).Nodup :=
  ((List.perm_insertionSort _ files).map _).nodup_iff.mpr distinct

/-- The sorted files that are left when the first or the last ones have been
removed. -/
theorem sortedFiles_unlinkAll
    {files front back : List SegmentFile}
    (distinct : (files.map SegmentFile.nameLsn).Nodup)
    (splits : sortedFiles files = front ++ back) :
    sortedFiles (unlinkAll files (front.map SegmentFile.nameLsn)) = back ∧
      sortedFiles (unlinkAll files (back.map SegmentFile.nameLsn)) =
        front := by
  have sorted := sortedFiles_pairwise distinct
  have names := nodup_sortedFiles distinct
  have sameFiles : (front ++ back).Perm files := by
    rw [← splits]
    exact List.perm_insertionSort _ files
  rw [splits] at sorted names
  obtain ⟨noFront, noBack⟩ := unlinkAll_append names
  constructor
  · refine sortedFiles_eq ?_ (sorted.sublist (List.sublist_append_right _ _))
    conv_lhs => rw [← noFront]
    exact sameFiles.filter _
  · refine sortedFiles_eq ?_ (sorted.sublist (List.sublist_append_left _ _))
    conv_lhs => rw [← noBack]
    exact sameFiles.filter _

/-- A changed file stays at its place. -/
theorem sortedFiles_changeFile
    (files : List SegmentFile)
    (name : Nat)
    (change : Bytes → Bytes) :
    sortedFiles (changeFile files name change) =
      changeFile (sortedFiles files) name change := by
  unfold sortedFiles changeFile
  symm
  refine List.map_insertionSort _ _ _ _ ?_
  intro first _ second _
  split_ifs <;> rfl

end Wal

/-- The directory without some segments. -/
def WalDirectory.removeSegments
    (wal : WalDirectory)
    (names : List Nat) : WalDirectory :=
  names.foldl WalDirectory.removeSegment wal

/-- The segments that are left, and the other names. -/
theorem WalDirectory.removeSegments_eq
    (wal : WalDirectory)
    (names : List Nat) :
    (wal.removeSegments names).segments = unlinkAll wal.segments names ∧
      (wal.removeSegments names).otherNames = wal.otherNames := by
  induction names generalizing wal with
  | nil =>
      exact ⟨by simp [removeSegments, unlinkAll], rfl⟩
  | cons name rest inductionHypothesis =>
      obtain ⟨segments, others⟩ :=
        inductionHypothesis (wal.removeSegment name)
      refine ⟨?_, others⟩
      rw [← unlinkAll_cons]
      exact segments

/-- The files in quarantine after some segments have been moved there. -/
def movedSegments
    (segments : List SegmentFile)
    (names : List Nat) : List Quarantined :=
  names.filterMap fun name =>
    (readSegment segments name).map fun bytes => .segment ⟨name, bytes⟩

/-- Segments that are there are moved to quarantine. -/
theorem RepairState.moveSegments_eq
    {state : RepairState}
    {wal : WalDirectory}
    (isWal : state.files.wal = some wal)
    {names : List Nat}
    (distinct : names.Nodup)
    (present : ∀ name ∈ names, (readSegment wal.segments name).isSome) :
    state.moveSegments names =
      ({ files :=
          { state.files with wal := some (wal.removeSegments names) }
         quarantine :=
          state.quarantine ++ movedSegments wal.segments names },
        none) := by
  induction names generalizing state wal with
  | nil =>
      simp [moveSegments, movedSegments, WalDirectory.removeSegments, ← isWal]
  | cons name rest inductionHypothesis =>
      obtain ⟨fresh, distinctRest⟩ := List.nodup_cons.mp distinct
      obtain ⟨⟨bytes, found⟩, presentRest⟩ :=
        (List.forall_mem_cons.mp present).imp_left
          Option.isSome_iff_exists.mp
      have others :
          ∀ other ∈ rest,
            readSegment (unlink wal.segments name) other =
              readSegment wal.segments other := by
        intro other member
        refine readSegment_unlink ?_ _
        rintro rfl
        exact fresh member
      have later :=
        @inductionHypothesis
          { files :=
              { state.files with wal := some (wal.removeSegment name) }
            quarantine := state.quarantine ++ [.segment ⟨name, bytes⟩] }
          (wal.removeSegment name) rfl distinctRest
          (fun other member => by
            change (readSegment (unlink wal.segments name) other).isSome
            rw [others other member]
            exact presentRest other member)
      have moves : state.moveSegment name =
          .ok
            { files :=
                { state.files with wal := some (wal.removeSegment name) }
              quarantine := state.quarantine ++ [.segment ⟨name, bytes⟩] } := by
        simp [moveSegment, isWal, found]
      have moved :
          movedSegments (wal.removeSegment name).segments rest =
            movedSegments wal.segments rest := by
        unfold movedSegments
        refine List.filterMap_congr fun other member => ?_
        change (readSegment (unlink wal.segments name) other).map _ = _
        rw [others other member]
      rw [moveSegments, moves]
      simp only
      rw [later, moved]
      simp [movedSegments, found, WalDirectory.removeSegments]

namespace DataFiles

/-- The files without some segments. -/
def removeSegments (files : DataFiles) (names : List Nat) : DataFiles :=
  { files with wal := files.wal.map fun wal => wal.removeSegments names }

/-- The segments that are left. -/
theorem segments_removeSegments
    (files : DataFiles)
    (names : List Nat) :
    (files.removeSegments names).segments =
      unlinkAll files.segments names := by
  unfold removeSegments segments
  cases files.wal with
  | none =>
      rfl
  | some wal =>
      exact (wal.removeSegments_eq names).1

/-- The files with another content of a segment. -/
def changeSegment
    (files : DataFiles)
    (name : Nat)
    (change : Bytes → Bytes) : DataFiles :=
  { files with wal := files.wal.map fun wal => wal.changeSegment name change }

/-- The segments with another content of one of them. -/
theorem segments_changeSegment
    (files : DataFiles)
    (name : Nat)
    (change : Bytes → Bytes) :
    (files.changeSegment name change).segments =
      changeFile files.segments name change := by
  unfold changeSegment segments
  cases files.wal with
  | none =>
      rfl
  | some wal =>
      rfl

end DataFiles

namespace RepairState

/-- Segments of the directory are moved to quarantine. -/
theorem moveSegments_files
    {state : RepairState}
    {names : List Nat}
    (distinct : names.Nodup)
    (present :
      ∀ name ∈ names, (readSegment state.files.segments name).isSome) :
    state.moveSegments names =
      ({ files := state.files.removeSegments names
         quarantine :=
          state.quarantine ++ movedSegments state.files.segments names },
        none) := by
  unfold DataFiles.segments at present ⊢
  cases isWal : state.files.wal with
  | none =>
      rw [isWal] at present
      cases names with
      | nil =>
          obtain ⟨⟨_, _, _, _, wal⟩, _⟩ := state
          obtain rfl : wal = none := isWal
          simp [moveSegments, movedSegments, DataFiles.removeSegments]
      | cons name rest =>
          cases present name List.mem_cons_self
  | some wal =>
      rw [isWal] at present
      rw [moveSegments_eq isWal distinct present]
      simp [DataFiles.removeSegments, isWal]

/-- The names of some sorted files are those of segments of the directory. -/
theorem moveSegments_sorted
    {state : RepairState}
    {moved : List SegmentFile}
    (isSublist : moved.Sublist (sortedFiles state.files.segments)) :
    state.moveSegments (moved.map SegmentFile.nameLsn) =
      ({ files :=
          state.files.removeSegments (moved.map SegmentFile.nameLsn)
         quarantine :=
          state.quarantine ++
            movedSegments state.files.segments
              (moved.map SegmentFile.nameLsn) },
        none) := by
  have distinct := state.files.distinct_segments
  refine moveSegments_files ?_ ?_
  · exact (isSublist.map _).nodup (nodup_sortedFiles distinct)
  · intro name member
    obtain ⟨file, isMoved, rfl⟩ := List.mem_map.mp member
    have isFile : file ∈ state.files.segments :=
      (List.mem_insertionSort _).mp (isSublist.subset isMoved)
    rw [readSegment_of_mem distinct isFile]
    rfl

/-- A segment of the directory is cut off. -/
theorem truncateSegment_eq
    {state : RepairState}
    {file : SegmentFile}
    (isFile : file ∈ state.files.segments)
    (offset : Nat) :
    state.truncateSegment file.nameLsn offset =
      ({ files := state.files.changeSegment file.nameLsn (setLength offset)
         quarantine :=
          if offset < file.bytes.length then
            state.quarantine ++
              [.tail file.nameLsn (file.bytes.drop offset)]
          else
            state.quarantine },
        none) := by
  have found := readSegment_of_mem state.files.distinct_segments isFile
  unfold DataFiles.segments at isFile found
  unfold truncateSegment DataFiles.changeSegment
  cases isWal : state.files.wal with
  | none =>
      rw [isWal] at isFile
      cases isFile
  | some wal =>
      rw [isWal] at found
      simp only [found]
      rfl

end RepairState

namespace Wal

/-- The last of some files is cut off. -/
theorem changeFile_setLength
    {early : List SegmentFile}
    {file : SegmentFile}
    (distinct : ((early ++ [file]).map SegmentFile.nameLsn).Nodup)
    {offset : Nat}
    (inside : offset ≤ file.bytes.length) :
    changeFile (early ++ [file]) file.nameLsn (setLength offset) =
      early ++ [{ file with bytes := file.bytes.take offset }] := by
  rw [List.map_append, List.nodup_append] at distinct
  obtain ⟨_, _, apart⟩ := distinct
  have unchanged :
      early.map (fun other =>
        if other.nameLsn = file.nameLsn then
          { other with bytes := setLength offset other.bytes }
        else
          other) = early := by
    conv_rhs => rw [← List.map_id early]
    refine List.map_congr_left fun other member => ?_
    have different :=
      apart _ (List.mem_map_of_mem member) file.nameLsn (by simp)
    rw [if_neg different]
    rfl
  unfold changeFile
  rw [List.map_append, unchanged]
  simp [setLength, Nat.sub_eq_zero_of_le inside]

end Wal

end SinterDb
