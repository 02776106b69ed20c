import SinterDb.Engine.EngineWrites

namespace SinterDb

open Unicode
open Wal

/-!
# Opening an engine again

Recovery of what a run has left: from the newest snapshot that can be read and
the records behind it the same databases are built.
-/

/-- The snapshot that is selected is one that can be read; none is when none
can be read. -/
theorem selectBase_image
    (files : List SnapshotFile)
    (skipped : List SkippedCheckpoint) :
    ((selectBase skipped files).lsn = 0 ∧
        (selectBase skipped files).base = none ∧
        ∀ file ∈ files, file.image? = none) ∨
      ∃ file ∈ files, ∃ base, (selectBase skipped files).base = some base ∧
        base.lsn = file.nameLsn ∧
        file.image? =
          some (Recovered.ofCollections base.collections).image := by
  induction files generalizing skipped with
  | nil =>
      exact .inl ⟨rfl, rfl, nofun⟩
  | cons file rest inductionHypothesis =>
      have behind :
          ∀ skipped, file.image? = none →
            ((selectBase skipped rest).lsn = 0 ∧
                (selectBase skipped rest).base = none ∧
                ∀ other ∈ file :: rest, other.image? = none) ∨
              ∃ other ∈ file :: rest, ∃ base,
                (selectBase skipped rest).base = some base ∧
                base.lsn = other.nameLsn ∧
                other.image? =
                  some (Recovered.ofCollections base.collections).image := by
        intro skipped unreadable
        rcases inductionHypothesis skipped with
          ⟨isZero, isNone, none⟩ | ⟨other, member, found⟩
        · refine .inl ⟨isZero, isNone, ?_⟩
          rw [List.forall_mem_cons]
          exact ⟨unreadable, none⟩
        · exact .inr ⟨other, List.mem_cons_of_mem _ member, found⟩
      unfold selectBase
      cases reads : readCheckpoint file.bytes with
      | error error =>
          refine behind _ ?_
          unfold SnapshotFile.image? SnapshotFile.imageOf?
          rw [reads]
      | ok base =>
          dsimp only
          split_ifs with misnamed
          · refine behind _ ?_
            unfold SnapshotFile.image? SnapshotFile.imageOf?
            simp only [reads, if_neg misnamed]
          · have named : base.lsn = file.nameLsn := not_not.mp misnamed
            refine .inr ⟨file, List.mem_cons_self, base, rfl, named, ?_⟩
            unfold SnapshotFile.image? SnapshotFile.imageOf?
            simp only [reads, if_pos named]

/-- Recovered databases with the image of collections that can be opened
again. -/
theorem opens_of_image
    {recovered : Recovered}
    {databases : JsMap JsString CollectionMap}
    (lasting : Lasting databases)
    (same : recovered.image = viewMaps Collection.image databases) :
    ∀ database ∈ recovered.entries, database.2.entries ≠ [] ∧
      ∀ collection ∈ database.2.entries, collection.2.Opens := by
  intro database member
  have inImage :
      (database.1,
          OrderedTable.mapValues RecoveredState.image database.2.entries) ∈
        viewMaps Collection.image databases := by
    rw [← same]
    exact List.mem_map_of_mem member
  rcases List.mem_map.mp inImage with ⟨before, isBefore, alike⟩
  have inside :
      OrderedTable.mapValues Collection.image before.2.entries =
        OrderedTable.mapValues RecoveredState.image database.2.entries :=
    congrArg Prod.snd alike
  have lastingBefore := lasting before isBefore
  constructor
  · intro nothing
    rw [nothing] at inside
    exact lastingBefore.1 (List.map_eq_nil_iff.mp inside)
  · intro collection isCollection
    have inView :
        (collection.1, collection.2.image) ∈
          OrderedTable.mapValues Collection.image before.2.entries := by
      rw [inside]
      exact List.mem_map_of_mem isCollection
    rcases List.mem_map.mp inView with ⟨store, isStore, sameStore⟩
    have sameImage : store.2.image = collection.2.image :=
      congrArg Prod.snd sameStore
    have documents :
        collection.2.documents.entries = store.2.documents.entries :=
      (congrArg StoreImage.documents sameImage).symm
    have indexes :
        collection.2.indexes = IndexSet.specs store.2.indexes :=
      (congrArg StoreImage.indexes sameImage).symm
    rcases (lastingBefore.2 store isStore).create_eq documents with
      ⟨reopened, creates, isImage, isLasting⟩
    refine ⟨reopened, ?_, isImage.trans sameImage, isLasting⟩
    rw [indexes]
    exact creates

namespace StorageEngine

variable
  {damaged : Prop}
  {history : List (List Operation)}
  {databases : JsMap JsString CollectionMap}
  {log : WriteAheadLog}
  {acknowledged : List WalRecord}
  {gone : Nat}
  {snapshots : List SnapshotFile}

/-- Where recovery starts: from the image of a snapshot, or from nothing. -/
theorem exists_base
    (keeps : SnapshotsKeep damaged history snapshots gone)
    (readable : gone = 0 ∨ ∃ file ∈ snapshots, file.image?.isSome = true)
    (named : ∀ file ∈ snapshots, file.nameLsn ≤ history.length) :
    ∃ lsn, (selectBase [] (newestFirst snapshots)).lsn = lsn ∧
      gone ≤ lsn ∧ lsn ≤ history.length ∧
      Journal.replay Image.applyRecord
          (Recovered.ofCollections
            (((selectBase [] (newestFirst snapshots)).base.map
              ReadCheckpoint.collections).getD [])).image
          (history.drop lsn) =
        Journal.replay Image.applyRecord [] history := by
  have isPerm := perm_newestFirst snapshots
  rcases selectBase_image (newestFirst snapshots) [] with
    ⟨isZero, isNone, unreadable⟩ | ⟨file, member, base, isBase, lsn, reads⟩
  · have nothingGone : gone = 0 := by
      rcases readable with nothingGone | ⟨file, isFile, isReadable⟩
      · exact nothingGone
      · rw [unreadable file (isPerm.mem_iff.mpr isFile)] at isReadable
        cases isReadable
    refine ⟨0, isZero, nothingGone.le, Nat.zero_le _, ?_⟩
    rw [isNone, List.drop_zero]
    rfl
  · have isFile := isPerm.subset member
    have restores :=
      keeps.restores (fun _ _ => SnapshotFile.contents?_of_image?) isFile reads
    refine ⟨file.nameLsn, ?_, keeps.covered file isFile, named file isFile,
      ?_⟩
    · unfold SelectedBase.lsn
      rw [isBase]
      exact lsn
    · rw [isBase]
      exact restores.recovers_all

/-- Recovery builds the databases that the recorded operations lead to. -/
theorem recover_ok
    (settings : EngineSettings)
    (outcomes : List FileOutcome)
    (inFiles : RemembersInFiles log acknowledged gone)
    (recordsOf : List.Forall₂ Recovered.IsRecordOf acknowledged history)
    (keeps : SnapshotsKeep damaged history snapshots gone)
    (readable : gone = 0 ∨ ∃ file ∈ snapshots, file.image?.isSome = true)
    (named : ∀ file ∈ snapshots, file.nameLsn ≤ history.length)
    (lasting : Lasting databases)
    (valid : (imageOf databases).Valid)
    (replays :
      Journal.replay Image.applyRecord [] history =
        some (imageOf databases)) :
    ∃ engine, recover settings log snapshots outcomes = .ok engine ∧
      engine.image = imageOf databases ∧ Lasting engine.databases ∧
      Kept damaged history [] engine.databases engine := by
  have remembers := inFiles.remembers
  rcases exists_base keeps readable named with
    ⟨lsn, isLsn, covers, inside, recovers⟩
  have counts : acknowledged.length = history.length :=
    recordsOf.length_eq
  have inOrder :
      checkSequence settings.root (selectBase [] (newestFirst snapshots)) log =
        .ok () := by
    unfold checkSequence
    rw [isLsn, remembers.firstLsn, remembers.lastLsn,
      if_neg (by omega), if_neg (by omega)]
  have reads := inFiles.records covers
  rw [replays] at recovers
  have replay :
      ∃ recovered,
        (acknowledged.drop lsn).foldlM (replayRecord settings.root)
            (Recovered.ofCollections
              (((selectBase [] (newestFirst snapshots)).base.map
                ReadCheckpoint.collections).getD [])) = .ok recovered ∧
          recovered.image = imageOf databases :=
    Recovered.replayRecords_ok (List.forall₂_drop lsn recordsOf) recovers
  rcases replay with ⟨recovered, replayed, isImage⟩
  rcases registerAll_ok settings.root (opens_of_image lasting isImage) with
    ⟨opened, registers, sameImage, isLasting⟩
  have same : imageOf opened = imageOf databases :=
    sameImage.trans isImage
  have ends :
      ∃ engine : StorageEngine,
        recover settings log snapshots outcomes = .ok engine ∧
          engine.databases = opened ∧ engine.closed = false ∧
          engine.log = log ∧ engine.snapshots = snapshots ∧
          engine.activeCheckpoint = none := by
    unfold recover
    dsimp only
    rw [inOrder]
    dsimp only
    rw [isLsn, reads]
    dsimp only
    rw [replayed]
    dsimp only
    rw [registers]
    exact ⟨_, rfl, rfl, rfl, rfl, rfl, rfl⟩
  rcases ends with
    ⟨engine, recovers, rfl, isOpen, rfl, rfl, isIdle⟩
  have compacted : engine.compacted = gone := by
    unfold StorageEngine.compacted
    rw [remembers.firstLsn, Nat.add_sub_cancel_left]
  have isSame : engine.image = imageOf databases := same
  refine ⟨engine, recovers, isSame, isLasting, ?_⟩
  exact
    { isDatabases := rfl
      isOpen := isOpen
      valid := by
        rw [isSame]
        exact valid
      replays := by
        rw [List.append_nil, replays, isSame]
      settled := nofun
      records := by
        rw [compacted]
        exact ⟨acknowledged, remembers, recordsOf⟩
      snapshots := by
        rw [compacted, List.append_nil]
        exact keeps
      named := named
      active := by
        intro active isActive
        rw [isIdle] at isActive
        cases isActive }

end StorageEngine

end SinterDb
