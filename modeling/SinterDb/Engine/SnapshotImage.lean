import SinterDb.Engine.CheckpointRoundTrip
import SinterDb.Engine.Image

namespace SinterDb

open Unicode

/-!
# The image in a snapshot

A snapshot that was written reads back as the image that it was written from,
when the names in it are ones that the text coding restores.
-/

/-- A name that the text coding restores: well formed, and without a byte order
mark. -/
def IsKeptName (name : JsString) : Prop :=
  isWellFormed name = true ∧ startsWithBom name = false

instance (name : JsString) : Decidable (IsKeptName name) :=
  inferInstanceAs (Decidable (_ ∧ _))

/-- What is kept of a collection, as its writes leave it. -/
structure StoreImage.Valid (image : StoreImage) : Prop where
  stored : ∀ entry ∈ image.documents, StoredAs entry.1 entry.2
  distinct : (image.documents.map Prod.fst).Nodup
  normalized :
    ∀ spec ∈ image.indexes, ∃ input, normalizeIndexSpec input = .ok spec
  few : image.indexes.length ≤ maxIndexesPerCollection
  names :
    ∀ spec ∈ image.indexes, IsKeptName spec.name ∧ IsKeptName spec.field

/-- What is kept of all databases, as an engine leaves it. -/
structure Image.Valid (image : Image) : Prop where
  proper : OrderedTable.Proper image
  databases : ∀ database ∈ image, IsKeptName database.1
  collections :
    ∀ database ∈ image, ∀ collection ∈ database.2,
      IsKeptName collection.1 ∧ collection.2.Valid

/-- A collection of a snapshot with its names. -/
def CheckpointCollection.view
    (collection : CheckpointCollection) : JsString × JsString × StoreImage :=
  (collection.database, collection.collection,
    ⟨collection.documents, collection.indexes⟩)

/-- The image of a snapshot, if it is one of the number that its file name
spells. -/
def SnapshotFile.imageOf?
    (file : SnapshotFile)
    (read : Except CheckpointDamagedError ReadCheckpoint) : Option Image :=
  match read with
  | .error _ => none
  | .ok base =>
      if base.lsn = file.nameLsn then
        some (Recovered.ofCollections base.collections).image
      else
        none

/-- The image that the bytes of a snapshot file hold. -/
def SnapshotFile.contents? (file : SnapshotFile) : Option Image :=
  file.imageOf? (parseCheckpoint file.bytes)

/-- The image that a snapshot file reads back as, if it can be used: the one
that its bytes hold, unless there are too many of them. -/
def SnapshotFile.image? (file : SnapshotFile) : Option Image :=
  file.imageOf? (readCheckpoint file.bytes)

/-- What a snapshot file reads back as is what its bytes hold. -/
theorem SnapshotFile.contents?_of_image?
    {file : SnapshotFile}
    {image : Image}
    (reads : file.image? = some image) :
    file.contents? = some image := by
  unfold image? at reads
  cases isRead : readCheckpoint file.bytes with
  | error error =>
      rw [isRead] at reads
      cases reads
  | ok base =>
      unfold contents?
      rw [(readCheckpoint_eq_ok isRead).2, ← isRead]
      exact reads

/-- A snapshot file that is short enough reads back as what its bytes hold. -/
theorem SnapshotFile.image?_of_le
    {file : SnapshotFile}
    (short : file.bytes.length ≤ maxReadFileSize) :
    file.image? = file.contents? := by
  unfold image? contents?
  rw [readCheckpoint_of_le short]

section Fitting

/-- A loop that ends has made every one of its steps. -/
theorem step_of_foldlM
    {ε α β : Type}
    {step : β → α → Except ε β}
    {items : List α}
    {start final : β}
    (folds : items.foldlM step start = .ok final) :
    ∀ item ∈ items, ∃ before after, step before item = .ok after := by
  induction items generalizing start with
  | nil =>
      simp
  | cons item rest inductionHypothesis =>
      rw [List.foldlM_cons] at folds
      rcases Result.bind_eq_ok.mp folds with ⟨next, stepOk, later⟩
      rw [List.forall_mem_cons]
      exact ⟨⟨start, next, stepOk⟩, inductionHypothesis later⟩

/-- What could be written fits. -/
theorem fits_of_writeUIntBE
    {width value : Nat}
    {bytes : Bytes}
    (writes : writeUIntBE width value = .ok bytes) :
    value < 256 ^ width := by
  unfold writeUIntBE at writes
  split_ifs at writes with fits
  exact fits

/-- A kept name that could be written is restored. -/
theorem IsKeptName.restored
    {name : JsString}
    {bytes : Bytes}
    (isKept : IsKeptName name)
    (encodes : encodeName name = .ok bytes) :
    IsRestoredName name := by
  unfold encodeName at encodes
  have length := (Result.else_of_ok encodes).1
  rw [not_or] at length
  refine ⟨?_, Nat.pos_of_ne_zero length.1, Nat.le_of_not_lt length.2⟩
  rw [decode_encode isKept.1, stripBom_eq_self isKept.2]

/-- A collection that could be written can be read back. -/
theorem valid_of_addCollection
    {collection : CheckpointCollection}
    {before after : SnapshotWriter}
    (database : IsKeptName collection.database)
    (name : IsKeptName collection.collection)
    (image : collection.view.2.2.Valid)
    (count : collection.documentCount = collection.documents.length)
    (adds : before.addCollection collection = .ok after) :
    collection.Valid := by
  unfold SnapshotWriter.addCollection at adds
  rcases Result.bind_eq_ok.mp adds with ⟨_, encodesDatabase, adds⟩
  rcases Result.bind_eq_ok.mp adds with ⟨_, encodesName, adds⟩
  rcases Result.bind_eq_ok.mp adds with ⟨_, writesIndexes, adds⟩
  rcases Result.bind_eq_ok.mp adds with ⟨_, addsIndexes, adds⟩
  rcases Result.bind_eq_ok.mp adds with ⟨_, writesCount, addsDocuments⟩
  have documentsFit := fits_of_writeUIntBE writesCount
  have stepsIndexes := step_of_foldlM addsIndexes
  have stepsDocuments := step_of_foldlM addsDocuments
  refine ⟨database.restored encodesDatabase, name.restored encodesName, ?_,
    ?_, ?_, image.distinct, count, ?_, ?_⟩
  · intro spec member
    rcases stepsIndexes spec member with ⟨_, _, addsIndex⟩
    rcases Result.bind_eq_ok.mp addsIndex with ⟨_, encodes, -⟩
    rcases Result.bind_eq_ok.mp encodes with ⟨_, encodesSpecName, encodes⟩
    rcases Result.bind_eq_ok.mp encodes with ⟨_, encodesField, -⟩
    have names := image.names spec member
    exact ⟨image.normalized spec member, names.1.restored encodesSpecName,
      names.2.restored encodesField⟩
  · exact fits_of_writeUIntBE writesIndexes
  · intro entry member
    rcases image.stored entry member with ⟨-, id, -, -, isKey⟩
    exact ⟨id.bytes, id.length_eq, isKey.symm⟩
  · rw [← count]
    exact documentsFit
  · intro entry member
    rcases stepsDocuments entry member with ⟨_, _, addsDocument⟩
    rcases Result.bind_eq_ok.mp addsDocument with ⟨_, writesLength, -⟩
    exact fits_of_writeUIntBE writesLength

end Fitting

section Reading

variable
  {image : Image}
  {collections : List CheckpointCollection}

/-- The image of the collections of a snapshot. -/
theorem image_ofCollections
    (collections : List RecoveredCollection) :
    (Recovered.ofCollections collections).image =
      OrderedTable.ofFlat
        (collections.map fun entry =>
          (entry.database, entry.collection,
            ⟨entry.documents.entries, entry.indexes⟩)) := by
  have behind :
      ∀ (start : Recovered),
        (collections.foldl
            (fun recovered entry =>
              recovered.setState entry.database entry.collection
                ⟨entry.documents, entry.indexes⟩)
            start).image =
          (collections.map fun entry =>
              (entry.database, entry.collection,
                (⟨entry.documents.entries, entry.indexes⟩ :
                  StoreImage))).foldl
            (fun table entry =>
              OrderedTable.putIn table entry.1 entry.2.1 entry.2.2)
            start.image := by
    induction collections with
    | nil =>
        intro start
        rfl
    | cons entry rest inductionHypothesis =>
        intro start
        rw [List.foldl_cons, inductionHypothesis, List.map_cons,
          List.foldl_cons, Recovered.image_setState]
        rfl
  exact behind .empty

/-- A snapshot that could be written holds its image. -/
theorem contents?_written
    {lsn : Nat}
    {bytes : Bytes}
    (valid : image.Valid)
    (isView :
      collections.map CheckpointCollection.view =
        OrderedTable.flatten image)
    (counts :
      ∀ collection ∈ collections,
        collection.documentCount = collection.documents.length)
    (writes : writeCheckpointSteps lsn collections = .ok bytes) :
    SnapshotFile.contents? ⟨lsn, bytes⟩ = some image := by
  have unfolded := writes
  unfold writeCheckpointSteps at unfolded
  rcases Result.bind_eq_ok.mp unfolded with ⟨_, writesLsn, unfolded⟩
  rcases Result.bind_eq_ok.mp unfolded with ⟨_, writesCount, unfolded⟩
  rcases Result.bind_eq_ok.mp unfolded with ⟨_, adds, -⟩
  have steps := step_of_foldlM adds
  have allValid : ∀ collection ∈ collections, collection.Valid := by
    intro collection member
    rcases steps collection member with ⟨_, _, addsOne⟩
    have inTable : collection.view ∈ OrderedTable.flatten image := by
      rw [← isView]
      exact List.mem_map_of_mem member
    rcases List.mem_flatMap.mp inTable with ⟨database, isDatabase, inside⟩
    rcases List.mem_map.mp inside with ⟨entry, isEntry, same⟩
    have collectionValid := valid.collections database isDatabase entry isEntry
    have sameDatabase : database.1 = collection.database :=
      congrArg Prod.fst same
    have sameEntry : entry = collection.view.2 := congrArg Prod.snd same
    rw [sameEntry] at collectionValid
    refine valid_of_addCollection ?_ collectionValid.1 collectionValid.2
      (counts collection member) addsOne
    rw [← sameDatabase]
    exact valid.databases database isDatabase
  rcases exists_snapshot (fits_of_writeUIntBE writesLsn)
      (fits_of_writeUIntBE writesCount) allValid with
    ⟨file, writesFile, -, reads⟩
  have sameFile : file = bytes :=
    Except.ok.inj (writesFile.symm.trans writes)
  rw [sameFile] at reads
  have views :
      ((collections.map SnapshotReader.recovered).map fun entry =>
          (entry.database, entry.collection,
            (⟨entry.documents.entries, entry.indexes⟩ : StoreImage))) =
        collections.map CheckpointCollection.view := by
    rw [List.map_map]
    refine List.map_congr_left fun collection member => ?_
    have documents :
        (SnapshotReader.recovered collection).documents.entries =
          collection.documents :=
      JsMap.entries_ofEntries (allValid collection member).distinct
    simp only [Function.comp_apply, documents]
    rfl
  unfold SnapshotFile.contents? SnapshotFile.imageOf?
  simp only [reads, if_true]
  rw [image_ofCollections, views, isView,
    OrderedTable.ofFlat_flatten valid.proper]

end Reading

namespace StorageEngine

/-- The collections of a checkpoint are those of the image. -/
theorem view_checkpointCollections
    (engine : StorageEngine) :
    engine.checkpointCollections.map CheckpointCollection.view =
      OrderedTable.flatten engine.image := by
  unfold checkpointCollections OrderedTable.flatten image
    OrderedTable.mapValues
  rw [List.map_flatMap, List.flatMap_map]
  refine List.flatMap_congr fun database _ => ?_
  rw [List.map_map, List.map_map]
  rfl

/-- The collections of a checkpoint count their documents. -/
theorem count_checkpointCollections
    (engine : StorageEngine) :
    ∀ collection ∈ engine.checkpointCollections,
      collection.documentCount = collection.documents.length := by
  intro collection member
  rcases List.mem_flatMap.mp member with ⟨database, -, inside⟩
  rcases List.mem_map.mp inside with ⟨entry, -, rfl⟩
  rfl

end StorageEngine

end SinterDb
