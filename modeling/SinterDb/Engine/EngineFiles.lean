import SinterDb.Engine.SnapshotImage
import SinterDb.Wal.LogHistory

namespace SinterDb

open Unicode
open Wal

/-!
# The files of an engine

The log and the snapshots of an engine, for the operations that it has recorded
so far.  While a write waits for its record, the databases may already have the
effect of the operations that are pending; a checkpoint that is begun then
copies that effect.
-/

/-- The files may have been damaged while the engine was not open. -/
abbrev SnapshotsKeep
    (damaged : Prop)
    (whole : List (List Operation))
    (snapshots : List SnapshotFile)
    (gone : Nat) : Prop :=
  Journal.Keeps Image.applyRecord [] SnapshotFile.nameLsn
    SnapshotFile.contents? SnapshotFile.image? whole damaged snapshots gone

namespace StorageEngine

/-- The records that compaction has removed. -/
def compacted (engine : StorageEngine) : Nat :=
  engine.log.firstLsn - 1

/-- A checkpoint that was begun has a good copy, newer than all snapshots. -/
structure Copies
    (history pending : List (List Operation))
    (engine : StorageEngine)
    (begun : BegunCheckpoint) : Prop where
  exists_image :
    ∃ image : Image, image.Valid ∧
      begun.collections.map CheckpointCollection.view =
        OrderedTable.flatten image ∧
      Journal.Restores Image.applyRecord [] (history ++ pending)
        ⟨begun.lsn, image⟩
  inside : begun.lsn ≤ history.length
  counts :
    ∀ collection ∈ begun.collections,
      collection.documentCount = collection.documents.length
  covers : engine.compacted ≤ begun.lsn
  newest : ∀ file ∈ engine.snapshots, file.nameLsn ≤ begun.lsn

/--
The files and the databases of an open engine agree with the operations that
were recorded and those that are pending.
-/
structure Kept
    (damaged : Prop)
    (history pending : List (List Operation))
    (databases : JsMap JsString CollectionMap)
    (engine : StorageEngine) : Prop where
  isDatabases : engine.databases = databases
  isOpen : engine.closed = false
  valid : engine.image.Valid
  replays :
    Journal.replay Image.applyRecord [] (history ++ pending) =
      some engine.image
  settled :
    ∀ record ∈ pending, engine.image.applyRecord record = some engine.image
  records :
    ∃ acknowledged, Remembers engine.log acknowledged engine.compacted ∧
      List.Forall₂ Recovered.IsRecordOf acknowledged history
  snapshots :
    SnapshotsKeep damaged (history ++ pending) engine.snapshots
      engine.compacted
  named : ∀ file ∈ engine.snapshots, file.nameLsn ≤ history.length
  active :
    ∀ active, engine.activeCheckpoint = some active →
      active.aborted = false →
        Copies history pending engine active.begun

/-- An engine agrees with its files as long as its log is not broken. -/
def Upholds
    (damaged : Prop)
    (history pending : List (List Operation))
    (databases : JsMap JsString CollectionMap)
    (engine : StorageEngine) : Prop :=
  engine.log.broken = true ∨ Kept damaged history pending databases engine

end StorageEngine

section Renaming

variable
  {files : List SnapshotFile}
  {file : SnapshotFile}

/-- The file is there. -/
theorem mem_renameSnapshot
    (files : List SnapshotFile)
    (file : SnapshotFile) :
    file ∈ renameSnapshot files file := by
  unfold renameSnapshot
  split_ifs with present
  · rcases List.any_eq_true.mp present with ⟨other, member, same⟩
    have sameName : other.nameLsn = file.nameLsn := by simpa using same
    exact List.mem_map.mpr ⟨other, member, if_pos sameName⟩
  · exact List.mem_cons_self

/-- The other files were there before. -/
theorem mem_of_mem_renameSnapshot
    {other : SnapshotFile}
    (member : other ∈ renameSnapshot files file) :
    other = file ∨ other ∈ files := by
  unfold renameSnapshot at member
  split_ifs at member with present
  · rcases List.mem_map.mp member with ⟨old, isOld, rfl⟩
    split_ifs
    · exact .inl rfl
    · exact .inr isOld
  · exact List.mem_cons.mp member

/-- No two files have the same name. -/
theorem nodup_renameSnapshot
    (distinct : (files.map SnapshotFile.nameLsn).Nodup) :
    ((renameSnapshot files file).map SnapshotFile.nameLsn).Nodup := by
  unfold renameSnapshot
  split_ifs with present
  · have same :
        ((files.map fun other =>
            if other.nameLsn = file.nameLsn then file else other).map
          SnapshotFile.nameLsn) = files.map SnapshotFile.nameLsn := by
      rw [List.map_map]
      refine List.map_congr_left fun other _ => ?_
      simp only [Function.comp_apply]
      split_ifs with sameName
      · exact sameName.symm
      · rfl
    rw [same]
    exact distinct
  · refine List.nodup_cons.mpr ⟨fun member => present ?_, distinct⟩
    rcases List.mem_map.mp member with ⟨other, isOther, same⟩
    exact List.any_eq_true.mpr ⟨other, isOther, by simpa using same⟩

/-- No file is lost. -/
theorem length_le_renameSnapshot
    (files : List SnapshotFile)
    (file : SnapshotFile) :
    files.length ≤ (renameSnapshot files file).length := by
  unfold renameSnapshot
  split_ifs
  · rw [List.length_map]
  · exact Nat.le_succ _

end Renaming

section Newest

variable
  {files : List SnapshotFile}

/-- The files are the same in any order. -/
theorem perm_newestFirst
    (files : List SnapshotFile) :
    (newestFirst files).Perm files :=
  List.perm_insertionSort _ _

/-- Newer files come first. -/
theorem pairwise_newestFirst
    (files : List SnapshotFile) :
    (newestFirst files).Pairwise fun first second =>
      second.nameLsn ≤ first.nameLsn :=
  List.pairwise_insertionSort _ _

/-- Removing one file more. -/
theorem filter_removed
    (files removed : List SnapshotFile)
    (old : SnapshotFile) :
    ((files.filter fun file => file.nameLsn != old.nameLsn).filter
        fun file => file.nameLsn ∉ removed.map SnapshotFile.nameLsn) =
      files.filter fun file =>
        file.nameLsn ∉ (old :: removed).map SnapshotFile.nameLsn := by
  rw [List.filter_filter]
  refine List.filter_congr fun file _ => ?_
  rw [Bool.eq_iff_iff]
  simp [and_comm]

end Newest

namespace StorageEngine

variable
  {damaged : Prop}
  {history pending : List (List Operation)}
  {databases : JsMap JsString CollectionMap}
  {engine : StorageEngine}
  {begun : BegunCheckpoint}

section Parts

/-- Changes that neither the files nor the databases notice. -/
theorem Kept.congr
    (kept : Kept damaged history pending databases engine)
    {later : StorageEngine}
    (sameDatabases : later.databases = engine.databases)
    (log : later.log = engine.log)
    (snapshots : later.snapshots = engine.snapshots)
    (closed : later.closed = engine.closed)
    (active :
      ∀ active, later.activeCheckpoint = some active →
        active.aborted = false →
          engine.activeCheckpoint = some active) :
    Kept damaged history pending databases later := by
  have image : later.image = engine.image := by
    unfold StorageEngine.image
    rw [sameDatabases]
  have compacted : later.compacted = engine.compacted := by
    unfold StorageEngine.compacted
    rw [log]
  constructor
  · rw [sameDatabases]
    exact kept.isDatabases
  · rw [closed]
    exact kept.isOpen
  · rw [image]
    exact kept.valid
  · rw [image]
    exact kept.replays
  · rw [image]
    exact kept.settled
  · rw [log, compacted]
    exact kept.records
  · rw [snapshots, compacted]
    exact kept.snapshots
  · rw [snapshots]
    exact kept.named
  · intro current isActive goesOn
    have copies := kept.active current (active current isActive goesOn) goesOn
    exact
      { exists_image := copies.exists_image
        inside := copies.inside
        counts := copies.counts
        covers := by
          rw [compacted]
          exact copies.covers
        newest := by
          rw [snapshots]
          exact copies.newest }

/-- The log may change as long as it remembers the same. -/
theorem Kept.withLog
    (kept : Kept damaged history pending databases engine)
    {log : WriteAheadLog}
    (stays :
      ∀ acknowledged,
        Remembers engine.log acknowledged engine.compacted →
          StaysOrBreaks acknowledged engine.compacted log) :
    Upholds damaged history pending databases { engine with log := log } := by
  rcases kept.records with ⟨acknowledged, remembers, recordsOf⟩
  rcases stays acknowledged remembers with isBroken | later
  · exact .inl isBroken
  · have compacted :
        compacted { engine with log := log } = engine.compacted := by
      unfold StorageEngine.compacted
      rw [later.firstLsn, remembers.firstLsn]
    refine .inr ⟨kept.isDatabases, kept.isOpen, kept.valid, kept.replays, kept.settled,
      ?_, ?_, kept.named, ?_⟩
    · rw [compacted]
      exact ⟨acknowledged, later, recordsOf⟩
    · rw [compacted]
      exact kept.snapshots
    · intro active isActive goesOn
      have copies := kept.active active isActive goesOn
      exact
        { exists_image := copies.exists_image
          inside := copies.inside
          counts := copies.counts
          covers := by
            rw [compacted]
            exact copies.covers
          newest := copies.newest }

end Parts

section Beginning

/-- The checkpoint that is being written is given up. -/
theorem Kept.abortActive
    (kept : Kept damaged history pending databases engine) :
    Kept damaged history pending databases engine.abortActive ∧
      ∀ active, engine.abortActive.activeCheckpoint = some active →
        active.aborted = true := by
  have allAborted :
      ∀ active, engine.abortActive.activeCheckpoint = some active →
        active.aborted = true := by
    intro active isActive
    rcases Option.map_eq_some_iff.mp isActive with ⟨before, -, rfl⟩
    rfl
  refine ⟨kept.congr rfl rfl rfl rfl ?_, allAborted⟩
  intro active isActive goesOn
  rw [allAborted active isActive] at goesOn
  cases goesOn

/-- The last number of the log counts the recorded operations. -/
theorem Kept.lastLsn
    (kept : Kept damaged history pending databases engine) :
    engine.log.lastLsn.toNat = history.length := by
  rcases kept.records with ⟨acknowledged, remembers, recordsOf⟩
  rw [remembers.lastLsn, recordsOf.length_eq]
  rfl

/-- A checkpoint of the databases as they are now has a good copy. -/
theorem Kept.copies
    (kept : Kept damaged history pending databases engine) :
    Copies history pending engine
      { lsn := engine.log.lastLsn.toNat
        collections := engine.checkpointCollections
        documents :=
          (engine.checkpointCollections.map
            CheckpointCollection.documentCount).sum
        bytes := engine.bytesSinceCheckpoint } where
  exists_image := by
    refine ⟨engine.image, kept.valid, engine.view_checkpointCollections, ?_⟩
    rw [kept.lastLsn]
    exact .taken kept.replays kept.settled
  inside := kept.lastLsn.le
  counts := engine.count_checkpointCollections
  covers := by
    rcases kept.records with ⟨acknowledged, remembers, recordsOf⟩
    rw [kept.lastLsn, ← recordsOf.length_eq]
    exact remembers.gone_le
  newest file member := by
    rw [kept.lastLsn]
    exact kept.named file member

/-- Beginning a checkpoint changes the log only. -/
theorem Kept.beginCheckpoint
    (kept : Kept damaged history pending databases engine)
    {later : StorageEngine}
    {result : Except Thrown (Option BegunCheckpoint)}
    (begins : engine.beginCheckpoint = (later, result)) :
    later.activeCheckpoint = engine.activeCheckpoint ∧
      (later.log.broken = true ∨
        Kept damaged history pending databases later ∧
          ∀ begun, result = .ok (some begun) →
            Copies history pending later begun) := by
  unfold StorageEngine.beginCheckpoint at begins
  dsimp only at begins
  split_ifs at begins with nothingNew
  · cases begins
    refine ⟨rfl, .inr ⟨kept, ?_⟩⟩
    intro begun isBegun
    cases isBegun
  · have synced :
        Upholds damaged history pending databases
          { engine with log := engine.log.sync.1 } :=
      kept.withLog fun _ remembers => remembers.sync
    generalize engine.log.sync = result at begins synced
    rcases result with ⟨log, error | value⟩
    · cases begins
      refine ⟨rfl, synced.imp_right fun keptLater => ⟨keptLater, ?_⟩⟩
      intro begun isBegun
      cases isBegun
    · cases begins
      refine ⟨rfl, synced.imp_right fun keptLater => ⟨keptLater, ?_⟩⟩
      intro begun isBegun
      have sameLsn :
          engine.log.lastLsn.toNat = log.lastLsn.toNat :=
        kept.lastLsn.trans keptLater.lastLsn.symm
      cases isBegun
      rw [sameLsn]
      exact keptLater.copies

end Beginning

section Finishing

/-- The snapshot of a checkpoint that was begun is good. -/
theorem Kept.placeSnapshot
    (kept : Kept damaged history pending databases engine)
    (copies : Copies history pending engine begun)
    (only :
      ∀ active, engine.activeCheckpoint = some active →
        active.aborted = false → active.begun = begun)
    (outcome : FileOutcome) :
    Kept damaged history pending databases
        (engine.placeSnapshot begun outcome).1 ∧
      ∀ file, (engine.placeSnapshot begun outcome).2 = .ok file →
        ∃ snapshot ∈ (engine.placeSnapshot begun outcome).1.snapshots,
          snapshot.contents?.isSome = true ∧
            ∀ other ∈ (engine.placeSnapshot begun outcome).1.snapshots,
              other.nameLsn ≤ snapshot.nameLsn := by
  unfold StorageEngine.placeSnapshot
  cases writes : writeCheckpointSteps begun.lsn begun.collections with
  | error error =>
      refine ⟨kept, ?_⟩
      intro file isFile
      cases isFile
  | ok bytes =>
      rcases copies.exists_image with ⟨image, valid, isView, restores⟩
      have holds := contents?_written valid isView copies.counts writes
      have newer :
          ∀ other ∈ renameSnapshot engine.snapshots ⟨begun.lsn, bytes⟩,
            other.nameLsn ≤ begun.lsn := by
        intro other member
        rcases mem_of_mem_renameSnapshot member with rfl | isOld
        · exact le_rfl
        · exact copies.newest other isOld
      have placed :
          Kept damaged history pending databases
            { engine with
              snapshots :=
                renameSnapshot engine.snapshots ⟨begun.lsn, bytes⟩ } :=
        { isDatabases := kept.isDatabases
          isOpen := kept.isOpen
          valid := kept.valid
          replays := kept.replays
          settled := kept.settled
          records := kept.records
          snapshots :=
            kept.snapshots.place holds restores copies.covers
              (nodup_renameSnapshot kept.snapshots.distinct)
              (mem_renameSnapshot _ _)
              (fun _ member => mem_of_mem_renameSnapshot member)
              (length_le_renameSnapshot _ _)
          named := fun file member =>
            (newer file member).trans copies.inside
          active := fun active isActive goesOn =>
            { exists_image :=
                (kept.active active isActive goesOn).exists_image
              inside := (kept.active active isActive goesOn).inside
              counts := (kept.active active isActive goesOn).counts
              covers := (kept.active active isActive goesOn).covers
              newest := by
                rw [only active isActive goesOn]
                exact newer } }
      have readable :
          ∃ snapshot ∈ renameSnapshot engine.snapshots ⟨begun.lsn, bytes⟩,
            snapshot.contents?.isSome = true ∧
              ∀ other ∈ renameSnapshot engine.snapshots ⟨begun.lsn, bytes⟩,
                other.nameLsn ≤ snapshot.nameLsn := by
        refine ⟨_, mem_renameSnapshot _ _, ?_, newer⟩
        rw [holds]
        rfl
      cases outcome with
      | done =>
          exact ⟨placed, fun _ _ => readable⟩
      | paused =>
          exact ⟨placed, fun _ _ => readable⟩
      | failed error =>
          refine ⟨kept, ?_⟩
          intro file isFile
          cases isFile
      | unsynced error =>
          refine ⟨placed, ?_⟩
          intro file isFile
          cases isFile

/-- Removing snapshots takes the first ones out of the list, and all of them
when nothing fails. -/
theorem removeSnapshots_eq
    (olds : List SnapshotFile)
    (engine : StorageEngine) :
    ∃ removed outcomes, removed <+: olds ∧
      (removeSnapshots olds engine).1 =
        { engine with
          snapshots :=
            engine.snapshots.filter fun file =>
              file.nameLsn ∉ removed.map SnapshotFile.nameLsn
          outcomes := outcomes } ∧
      ((removeSnapshots olds engine).2 = .ok () → removed = olds) := by
  induction olds generalizing engine with
  | nil =>
      refine ⟨[], engine.outcomes, List.prefix_rfl, ?_, fun _ => rfl⟩
      simp [removeSnapshots]
  | cons old rest inductionHypothesis =>
      unfold removeSnapshots
      generalize takes : engine.takeOutcome = taken
      have frame : ∃ outcomes, taken.2 = { engine with outcomes := outcomes } := by
        rw [← takes]
        unfold takeOutcome
        cases engine.outcomes with
        | nil =>
            exact ⟨engine.outcomes, rfl⟩
        | cons outcome others =>
            exact ⟨others, rfl⟩
      rcases taken with ⟨outcome, after⟩
      rcases frame with ⟨others, rfl⟩
      rcases inductionHypothesis
          { engine with
            snapshots :=
              engine.snapshots.filter fun file =>
                file.nameLsn != old.nameLsn
            outcomes := others } with
        ⟨removed, outcomes, isPrefix, isRemoved, all⟩
      have removes :
          ∃ removed outcomes, removed <+: old :: rest ∧
            (removeSnapshots rest
              { engine with
                snapshots :=
                  engine.snapshots.filter fun file =>
                    file.nameLsn != old.nameLsn
                outcomes := others }).1 =
              { engine with
                snapshots :=
                  engine.snapshots.filter fun file =>
                    file.nameLsn ∉ removed.map SnapshotFile.nameLsn
                outcomes := outcomes } ∧
            ((removeSnapshots rest
              { engine with
                snapshots :=
                  engine.snapshots.filter fun file =>
                    file.nameLsn != old.nameLsn
                outcomes := others }).2 = .ok () →
              removed = old :: rest) := by
        refine ⟨old :: removed, outcomes, List.cons_prefix_cons.mpr
          ⟨rfl, isPrefix⟩, ?_, fun isOk => by rw [all isOk]⟩
        rw [isRemoved, ← filter_removed]
      cases outcome with
      | failed error =>
          refine ⟨[], others, List.nil_prefix, ?_, ?_⟩
          · simp
          · intro isOk
            cases isOk
      | done =>
          exact removes
      | paused =>
          exact removes
      | unsynced error =>
          exact removes

/-- Snapshots may go, and the log with what they covered. -/
theorem Kept.withFiles
    (kept : Kept damaged history pending databases engine)
    {log : WriteAheadLog}
    {snapshots : List SnapshotFile}
    {outcomes : List FileOutcome}
    (remembers :
      ∀ acknowledged,
        Remembers engine.log acknowledged engine.compacted →
          Remembers log acknowledged (log.firstLsn - 1))
    (keeps :
      SnapshotsKeep damaged (history ++ pending) snapshots
        (log.firstLsn - 1))
    (subset : ∀ file ∈ snapshots, file ∈ engine.snapshots)
    (covered :
      log.firstLsn - 1 = engine.compacted ∨
        ∃ file ∈ engine.snapshots, log.firstLsn - 1 ≤ file.nameLsn) :
    Kept damaged history pending databases
      { engine with
        log := log
        snapshots := snapshots
        outcomes := outcomes } where
  isDatabases := kept.isDatabases
  isOpen := kept.isOpen
  valid := kept.valid
  replays := kept.replays
  settled := kept.settled
  records := by
    rcases kept.records with ⟨acknowledged, before, recordsOf⟩
    exact ⟨acknowledged, remembers acknowledged before, recordsOf⟩
  snapshots := keeps
  named file member := kept.named file (subset file member)
  active active isActive goesOn := by
    have copies := kept.active active isActive goesOn
    refine ⟨copies.exists_image, copies.inside, copies.counts, ?_,
      fun file member => copies.newest file (subset file member)⟩
    rcases covered with same | ⟨file, member, notAbove⟩
    · exact same.le.trans copies.covers
    · exact notAbove.trans (copies.newest file member)

/-- The end of a checkpoint whose snapshot was placed. -/
theorem Kept.finishCheckpoint
    (kept : Kept damaged history pending databases engine)
    {snapshot : SnapshotFile}
    (isSnapshot : snapshot ∈ engine.snapshots)
    (held : snapshot.contents?.isSome = true)
    (newer : ∀ other ∈ engine.snapshots, other.nameLsn ≤ snapshot.nameLsn)
    (begun : BegunCheckpoint)
    (file : JsString) :
    Kept damaged history pending databases
      (engine.finishCheckpoint begun file).1 := by
  have two := engine.settings.retains
  have isPerm := perm_newestFirst engine.snapshots
  have isSorted := pairwise_newestFirst engine.snapshots
  rcases removeSnapshots_eq
      ((newestFirst engine.snapshots).drop
        engine.settings.checkpointRetention) engine with
    ⟨removed, outcomes, isPrefix, isRemoved, all⟩
  have pruned :
      Kept damaged history pending databases
        { engine with
          snapshots :=
            engine.snapshots.filter fun file =>
              file.nameLsn ∉ removed.map SnapshotFile.nameLsn
          outcomes := outcomes } := by
    have keeps :=
      (kept.snapshots.prune isPerm isSorted two
        (fun file member => isPrefix.subset member) isSnapshot held
        newer).1
    exact kept.withFiles (fun _ remembers => remembers) keeps
      (fun file member => List.mem_of_mem_filter member) (.inl rfl)
  unfold StorageEngine.finishCheckpoint
  rw [kept.isOpen]
  simp only [Bool.false_eq_true, if_false]
  revert isRemoved all
  generalize
    removeSnapshots
      ((newestFirst engine.snapshots).drop
        engine.settings.checkpointRetention) engine = result
  intro isRemoved all
  rcases result with ⟨after, error | value⟩
  · cases isRemoved
    exact pruned
  · cases isRemoved
    have isAll := all rfl
    subst isAll
    cases isOldest :
        (newestFirst engine.snapshots)[
          engine.settings.checkpointRetention - 1]? with
    | none =>
        exact pruned.congr rfl rfl rfl rfl fun _ isActive _ => isActive
    | some oldest =>
        rcases kept.records with ⟨acknowledged, remembers, -⟩
        rcases remembers.truncateThrough oldest.nameLsn with
          ⟨removedSegments, later, isOk, remembersLater, -, bound⟩
        have isLater :
            (engine.log.truncateThrough oldest.nameLsn).1.firstLsn - 1 =
              later := by
          rw [remembersLater.firstLsn, Nat.add_sub_cancel_left]
        have oldestInside : oldest ∈ engine.snapshots :=
          isPerm.subset (List.mem_of_getElem? isOldest)
        have truncated :
            Kept damaged history pending databases
              { engine with
                log := (engine.log.truncateThrough oldest.nameLsn).1
                snapshots :=
                  engine.snapshots.filter fun file =>
                    file.nameLsn ∉
                      ((newestFirst engine.snapshots).drop
                        engine.settings.checkpointRetention).map
                          SnapshotFile.nameLsn
                outcomes := outcomes } := by
          refine kept.withFiles ?_ ?_
            (fun file member => List.mem_of_mem_filter member) ?_
          · intro records before
            rcases before.truncateThrough oldest.nameLsn with
              ⟨_, other, -, remembersOther, -⟩
            have same : other = later := by
              have first := remembersOther.firstLsn
              rw [remembersLater.firstLsn] at first
              exact (Nat.add_left_cancel first).symm
            rw [isLater, ← same]
            exact remembersOther
          · rw [isLater]
            exact kept.snapshots.compactBehind isPerm isSorted two isSnapshot
              held newer isOldest bound
          · rw [isLater]
            exact bound.imp_right fun notAbove =>
              ⟨oldest, oldestInside, notAbove⟩
        dsimp only
        revert isOk truncated
        generalize engine.log.truncateThrough oldest.nameLsn = truncation
        intro isOk truncated
        rcases truncation with ⟨log, outcome⟩
        cases isOk
        exact truncated.congr rfl rfl rfl rfl fun _ isActive _ => isActive

/-- The end of the snapshot file, and then of the checkpoint. -/
theorem Kept.completeCheckpoint
    (kept : Kept damaged history pending databases engine)
    (copies : Copies history pending engine begun)
    (only :
      ∀ active, engine.activeCheckpoint = some active →
        active.aborted = false → active.begun = begun)
    (outcome : FileOutcome) :
    Kept damaged history pending databases
      (engine.completeCheckpoint begun outcome).1 := by
  have places := kept.placeSnapshot copies only outcome
  unfold StorageEngine.completeCheckpoint
  revert places
  generalize engine.placeSnapshot begun outcome = result
  rintro ⟨placed, readable⟩
  rcases result with ⟨after, error | file⟩
  · exact placed
  · rcases readable file rfl with ⟨snapshot, member, reads, newer⟩
    exact placed.finishCheckpoint member reads newer begun file

end Finishing

end StorageEngine

end SinterDb
