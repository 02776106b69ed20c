import SinterDb.Storage.InsertBatch

namespace SinterDb

open Unicode

/-!
# Batches and single inserts

`insertMany` leaves what `insertOne` leaves when it is called for one document
after the other, up to the first that is rejected, and commits once what the
single inserts commit one by one.
-/

/-- The commits that a write asks the journal for. -/
def Write.commits
    {α : Type} : Write α → List (List JournalOperation)
  | .done _ _ => []
  | .commit _ operations _ => [operations]

namespace Collection

/-- What single inserts report, one after the other. -/
structure InsertedEach where
  insertedIds : List CustomId
  commits : List (List JournalOperation)
  rejection : Option (Nat × Thrown)

/--
`insertOne` for one document after the other with a journal that accepts, up to
the first that is rejected.
-/
def insertEach
    (generated : Nat → CustomId) :
    List Document → Nat → Collection → Collection × InsertedEach
  | [], _, collection => (collection, ⟨[], [], none⟩)
  | document :: rest, index, collection =>
      let write := collection.insertOne (generated index) document
      match write.run (.ok ()) with
      | (collection, .error error) =>
          (collection, ⟨[], write.commits, some (index, error)⟩)
      | (collection, .ok insertedId) =>
          let (collection, later) :=
            insertEach generated rest (index + 1) collection
          (collection,
            { insertedIds := insertedId :: later.insertedIds
              commits := write.commits ++ later.commits
              rejection := later.rejection })

/-- The documents of prepared inserts by their keys. -/
def entriesOf (accepted : List PreparedInsert) : List (JsString × Bytes) :=
  accepted.map fun entry => (entry.key, entry.encoded)

/-- A collection with other indexes. -/
def withIndexes (collection : Collection) (indexes : IndexSet) : Collection :=
  { collection with indexes := indexes }

/-- Putting a document leaves the indexes to change on their own. -/
theorem withIndexes_put
    (collection : Collection)
    (key : JsString)
    (encoded : Bytes)
    (indexes : IndexSet) :
    (collection.put key encoded).withIndexes indexes =
      (collection.withIndexes indexes).put key encoded := by
  unfold put withIndexes
  dsimp only
  split
  · rfl
  · split_ifs <;> rfl

/-- Putting documents leaves the indexes to change on their own. -/
theorem withIndexes_putAll
    (collection : Collection)
    (entries : List (JsString × Bytes))
    (indexes : IndexSet) :
    (collection.putAll entries).withIndexes indexes =
      (collection.withIndexes indexes).putAll entries := by
  unfold putAll
  induction entries generalizing collection with
  | nil =>
      rfl
  | cons entry rest inductionHypothesis =>
      rw [List.foldl_cons, List.foldl_cons, inductionHypothesis,
        withIndexes_put]

/-- The documents put are found, and those that were there. -/
theorem has_putAll
    (collection : Collection)
    (accepted : List PreparedInsert)
    (key : JsString) :
    (collection.putAll (entriesOf accepted)).documents.has key =
      (collection.documents.has key ||
        (accepted.map PreparedInsert.key).contains key) := by
  rw [Bool.eq_iff_iff, Bool.or_eq_true, JsMap.has_iff, JsMap.has_iff,
    putAll_documents, JsMap.mem_keys_foldl_set, entriesOf, List.map_map,
    List.contains_iff_mem]
  rfl

/-- Tracking depends on the indexes only. -/
theorem trackInsert_putAll
    (collection : Collection)
    (entries : List (JsString × Bytes))
    (prepared : PreparedInsert) :
    (collection.putAll entries).trackInsert prepared =
      ((collection.trackInsert prepared).1.putAll entries,
        (collection.trackInsert prepared).2) := by
  unfold trackInsert trackChanges
  rw [putAll_indexes]
  split_ifs
  · rfl
  · split
    · rfl
    · exact Prod.ext (withIndexes_putAll collection entries _) rfl

/-- An id that a document has is not generated. -/
theorem resolveDocumentId_fixed
    {document : Document}
    (fixed : (Document.get? document idField).isSome = true)
    (generated other : CustomId) :
    resolveDocumentId generated document =
      resolveDocumentId other document := by
  unfold resolveDocumentId
  cases isId : Document.get? document idField with
  | none =>
      rw [isId] at fixed
      cases fixed
  | some value =>
      cases value <;> rfl

/--
An insert behind documents that have been put goes as the insert of a batch in
which they are pending.
-/
theorem tryInsert_putAll
    (collection : Collection)
    (accepted : List PreparedInsert)
    {document : Document}
    (fixed : (Document.get? document idField).isSome = true)
    (generated other : CustomId) :
    (collection.putAll (entriesOf accepted)).tryInsert [] other document =
      let tried :=
        collection.tryInsert (accepted.map PreparedInsert.key) generated
          document
      (tried.1.putAll (entriesOf accepted), tried.2) := by
  have prepares :
      (collection.putAll (entriesOf accepted)).prepareInsert [] other
          document =
        collection.prepareInsert (accepted.map PreparedInsert.key) generated
          document := by
    unfold prepareInsert
    rw [resolveDocumentId_fixed fixed other generated]
    simp only [has_putAll, List.contains_nil, Bool.or_false]
  unfold tryInsert
  rw [prepares]
  cases collection.prepareInsert (accepted.map PreparedInsert.key) generated
      document with
  | error _ =>
      rfl
  | ok prepared =>
      dsimp only
      rw [trackInsert_putAll]

/-- The commit of one prepared insert. -/
def commitOf (entry : PreparedInsert) : JournalOperation :=
  .put entry.key entry.encoded

/-- A single insert that is rejected. -/
theorem insertOne_error
    {collection tracked : Collection}
    {generated : CustomId}
    {document : Document}
    {error : Thrown}
    (tries :
      collection.tryInsert [] generated document = (tracked, .error error)) :
    collection.insertOne generated document = .done tracked (.error error) := by
  rw [insertOne, tries]

/-- A single insert that is accepted by a journal that accepts. -/
theorem insertOne_ok
    {collection tracked : Collection}
    {generated : CustomId}
    {document : Document}
    {prepared : PreparedInsert}
    {undo : List UndoStep}
    (tries :
      collection.tryInsert [] generated document =
        (tracked, .ok (prepared, undo))) :
    (collection.insertOne generated document).commits =
        [[commitOf prepared]] ∧
      (collection.insertOne generated document).run (.ok ()) =
        (tracked.put prepared.key prepared.encoded, .ok prepared.id) := by
  rw [insertOne, tries]
  exact ⟨rfl, rfl⟩

/-- One more document put behind others. -/
theorem putAll_concat
    (collection : Collection)
    (accepted : List PreparedInsert)
    (prepared : PreparedInsert) :
    (collection.putAll (entriesOf accepted)).put prepared.key
        prepared.encoded =
      collection.putAll (entriesOf (accepted ++ [prepared])) := by
  simp [putAll, entriesOf]

/-- The rejection that a batch records. -/
def rejectionOf :
    Option (Nat × StorageError) → Option (Nat × Thrown)
  | none => none
  | some (index, error) => some (index, .storage error)

/--
The loop of a batch goes as the single inserts behind the documents that it has
accepted.
-/
theorem insertLoop_eq_insertEach
    {generated other : Nat → CustomId}
    {documents : List Document}
    (fixed :
      ∀ document ∈ documents, (Document.get? document idField).isSome = true)
    (index : Nat)
    (collection : Collection)
    (accepted : List PreparedInsert)
    (rollbacks : List (List UndoStep))
    (storageErrors :
      ∀ position error,
        (insertEach other documents index
            (collection.putAll (entriesOf accepted))).2.rejection =
          some (position, error) →
        ∃ storageError, error = .storage storageError) :
    ∃ final later undone failure,
      insertLoop generated documents index collection accepted rollbacks =
          (final, .ok ⟨accepted ++ later, undone, failure⟩) ∧
        insertEach other documents index
            (collection.putAll (entriesOf accepted)) =
          (final.putAll (entriesOf (accepted ++ later)),
            { insertedIds := later.map PreparedInsert.id
              commits := later.map fun entry => [commitOf entry]
              rejection := rejectionOf failure }) := by
  induction documents generalizing index collection accepted rollbacks with
  | nil =>
      refine ⟨collection, [], rollbacks, none, ?_, ?_⟩
      · rw [insertLoop, List.append_nil]
      · rw [insertEach, List.append_nil]
        rfl
  | cons document rest inductionHypothesis =>
      rw [List.forall_mem_cons] at fixed
      have single :=
        tryInsert_putAll collection accepted fixed.1 (generated index)
          (other index)
      cases tries : collection.tryInsert (accepted.map PreparedInsert.key)
          (generated index) document with
      | mk tracked result =>
          simp only [tries] at single
          cases result with
          | error error =>
              rw [insertEach, insertOne_error single] at storageErrors
              obtain ⟨storageError, rfl⟩ := storageErrors index error rfl
              refine ⟨tracked, [], rollbacks, some (index, storageError),
                ?_, ?_⟩
              · rw [insertLoop_cons_error tries, List.append_nil]
                rfl
              · rw [insertEach, insertOne_error single, List.append_nil]
                rfl
          | ok inserted =>
              obtain ⟨prepared, undo⟩ := inserted
              obtain ⟨commits, runs⟩ := insertOne_ok single
              rw [putAll_concat] at runs
              simp only [insertEach, runs, commits] at storageErrors ⊢
              obtain ⟨final, later, undone, failure, loops, each⟩ :=
                inductionHypothesis fixed.2 (index + 1) tracked
                  (accepted ++ [prepared]) (rollbacks ++ [undo]) storageErrors
              rw [List.append_assoc, List.singleton_append] at loops each
              refine ⟨final, prepared :: later, undone, failure, ?_, ?_⟩
              · rw [insertLoop_cons_ok tries]
                exact loops
              · rw [each]
                rfl

/-- What a batch reports when it has ended. -/
def reported
    (insertedIds : List CustomId) :
    Option (Nat × StorageError) → Except Thrown (List CustomId)
  | some (index, error) => .error (insertManyError index insertedIds error)
  | none => .ok insertedIds

/--
A batch of documents with ids leaves the collection that single inserts leave
up to the first rejection.  It reports the ids that they report and the error
of the one that is rejected, and makes one commit of all that they commit, or
none when nothing is accepted.
-/
theorem insertMany_eq_insertEach
    (collection : Collection)
    (generated other : Nat → CustomId)
    {documents : List Document}
    (nonempty : documents ≠ [])
    (fixed :
      ∀ document ∈ documents, (Document.get? document idField).isSome = true)
    (storageErrors :
      ∀ position error,
        (insertEach other documents 0 collection).2.rejection =
          some (position, error) →
        ∃ storageError, error = .storage storageError) :
    let each := insertEach other documents 0 collection
    let batch := collection.insertMany generated documents
    (batch.run (.ok ())).1 = each.1 ∧
      (each.2.rejection = none ∧
          (batch.run (.ok ())).2 = .ok each.2.insertedIds ∨
        ∃ position error,
          each.2.rejection = some (position, .storage error) ∧
            (batch.run (.ok ())).2 =
              .error (insertManyError position each.2.insertedIds error)) ∧
      ∃ accepted : List PreparedInsert,
        each.2.insertedIds = accepted.map PreparedInsert.id ∧
          each.2.commits = accepted.map (fun entry => [commitOf entry]) ∧
          batch.commits =
            if accepted = [] then [] else [accepted.map commitOf] := by
  intro each batch
  obtain ⟨final, accepted, undone, failure, loops, isEach⟩ :=
    @insertLoop_eq_insertEach generated other documents fixed 0 collection []
      [] storageErrors
  have isEach :
      each =
        (final.putAll (entriesOf accepted),
          { insertedIds := accepted.map PreparedInsert.id
            commits := accepted.map fun entry => [commitOf entry]
            rejection := rejectionOf failure }) := isEach
  have isBatch :
      batch =
        final.commit undone.flatten (accepted.map commitOf)
          (fun collection => collection.putAll (entriesOf accepted))
          (reported (accepted.map PreparedInsert.id) failure) := by
    simp only [batch, insertMany, if_neg nonempty, loops]
    rfl
  have runs :
      batch.run (.ok ()) =
        (final.putAll (entriesOf accepted),
          reported (accepted.map PreparedInsert.id) failure) := by
    rw [isBatch, commit]
    split_ifs <;> rfl
  rw [runs, isEach]
  refine ⟨rfl, ?_, accepted, rfl, rfl, ?_⟩
  · cases failure with
    | none =>
        exact .inl ⟨rfl, rfl⟩
    | some failed =>
        exact .inr ⟨failed.1, failed.2, rfl, rfl⟩
  · rw [isBatch, commit]
    simp only [List.map_eq_nil_iff]
    split_ifs <;> rfl

/-- The storage engine has thrown. -/
def IsStorage : Thrown → Bool
  | .storage _ => true
  | _ => false

/-- The second of two documents with the same id is rejected. -/
theorem insertMany_eq_insertEach_repeated :
    let id : CustomId := ⟨List.replicate 16 7, by decide⟩
    let documents : List Document :=
      [[(idField, .customId id)], [(idField, .customId id)]]
    (((empty.insertMany (fun _ => id) documents).run (.ok ())).1 =
        (insertEach (fun _ => id) documents 0 empty).1) ∧
      (insertEach (fun _ => id) documents 0 empty).2.rejection.isSome =
        true := by
  intro id documents
  have storage :
      ((insertEach (fun _ => id) documents 0 empty).2.rejection.map
        fun rejection => IsStorage rejection.2) = some true := by
    decide +kernel
  refine ⟨(insertMany_eq_insertEach empty _ _ (by simp [documents]) ?_ ?_).1,
    ?_⟩
  · decide +kernel
  · intro position error isRejection
    rw [isRejection] at storage
    cases error with
    | storage storageError =>
        exact ⟨storageError, rfl⟩
    | _ =>
        simp [IsStorage] at storage
  · rw [← Option.isSome_map, storage]
    rfl

end Collection

end SinterDb
