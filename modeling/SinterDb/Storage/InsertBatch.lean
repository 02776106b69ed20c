import SinterDb.Storage.CollectionExact

namespace SinterDb

open Unicode

/-!
# Batches of inserts

`insertMany` tracks one document after the other.  Where it stops, the indexes
represent the documents that it has accepted, and the rollbacks together lead
back to those before.
-/

namespace Collection

section Loop

variable
  {collection : Collection}
  {generated : Nat → CustomId}

/-- What the loop makes of a document that it cannot insert. -/
def stopped
    (accepted : List PreparedInsert)
    (rollbacks : List (List UndoStep))
    (index : Nat) : Thrown → Except Thrown InsertBatch
  | .storage error => .ok ⟨accepted, rollbacks, some (index, error)⟩
  | error => .error error

/-- The loop accepts its first document. -/
theorem insertLoop_cons_ok
    {document : Document}
    {index : Nat}
    {before : List PreparedInsert}
    {undone : List (List UndoStep)}
    {tracked : Collection}
    {prepared : PreparedInsert}
    {undo : List UndoStep}
    (tries :
      collection.tryInsert (before.map PreparedInsert.key) (generated index)
        document = (tracked, .ok (prepared, undo)))
    (rest : List Document) :
    insertLoop generated (document :: rest) index collection before undone =
      insertLoop generated rest (index + 1) tracked (before ++ [prepared])
        (undone ++ [undo]) := by
  rw [insertLoop]
  simp only [tries]

/-- The loop stops at its first document. -/
theorem insertLoop_cons_error
    {document : Document}
    {index : Nat}
    {before : List PreparedInsert}
    {undone : List (List UndoStep)}
    {tracked : Collection}
    {error : Thrown}
    (tries :
      collection.tryInsert (before.map PreparedInsert.key) (generated index)
        document = (tracked, .error error))
    (rest : List Document) :
    insertLoop generated (document :: rest) index collection before undone =
      (tracked, stopped before undone index error) := by
  rw [insertLoop]
  cases error <;> simp only [tries, stopped]

/-- Stopping is not accepting everything. -/
theorem stopped_ne
    {accepted other : List PreparedInsert}
    {rollbacks undone : List (List UndoStep)}
    {index : Nat}
    {error : Thrown} :
    stopped accepted rollbacks index error ≠ .ok ⟨other, undone, none⟩ := by
  intro same
  cases error <;> simp [stopped] at same

/-- The loop goes on behind documents that it has accepted. -/
theorem insertLoop_append
    {front rest : List Document}
    {index : Nat}
    {reached : Collection}
    {accepted before : List PreparedInsert}
    {rollbacks undone : List (List UndoStep)}
    (accepts :
      insertLoop generated front index collection before undone =
        (reached, .ok ⟨accepted, rollbacks, none⟩)) :
    insertLoop generated (front ++ rest) index collection before undone =
      insertLoop generated rest (index + front.length) reached accepted
        rollbacks := by
  induction front generalizing index collection before undone with
  | nil =>
      obtain ⟨rfl, isBatch⟩ := Prod.mk.inj accepts
      obtain ⟨rfl, rfl, -⟩ := InsertBatch.mk.inj (Except.ok.inj isBatch)
      rfl
  | cons document later inductionHypothesis =>
      cases tries : collection.tryInsert (before.map PreparedInsert.key)
          (generated index) document with
      | mk tracked result =>
          cases result with
          | error error =>
              rw [insertLoop_cons_error tries] at accepts
              exact absurd (Prod.mk.inj accepts).2 stopped_ne
          | ok inserted =>
              rw [insertLoop_cons_ok tries] at accepts
              rw [List.cons_append, insertLoop_cons_ok tries,
                inductionHypothesis accepts, List.length_cons,
                show index + (later.length + 1) =
                  index + 1 + later.length by omega]

/-- The loop accepts all documents, or it stops at one behind those that it
has accepted. -/
theorem insertLoop_cases
    (generated : Nat → CustomId)
    (documents : List Document)
    (index : Nat)
    (collection : Collection)
    (before : List PreparedInsert)
    (undone : List (List UndoStep)) :
    (∃ reached accepted rollbacks,
        insertLoop generated documents index collection before undone =
          (reached, .ok ⟨accepted, rollbacks, none⟩)) ∨
      ∃ front document back reached accepted rollbacks final error,
        documents = front ++ document :: back ∧
          insertLoop generated front index collection before undone =
            (reached, .ok ⟨accepted, rollbacks, none⟩) ∧
          reached.tryInsert (accepted.map PreparedInsert.key)
              (generated (index + front.length)) document =
            (final, .error error) ∧
          insertLoop generated documents index collection before undone =
            (final,
              stopped accepted rollbacks (index + front.length) error) := by
  induction documents generalizing index collection before undone with
  | nil =>
      exact .inl ⟨collection, before, undone, rfl⟩
  | cons document rest inductionHypothesis =>
      cases tries : collection.tryInsert (before.map PreparedInsert.key)
          (generated index) document with
      | mk tracked result =>
          cases result with
          | error error =>
              exact .inr ⟨[], document, rest, collection, before, undone,
                tracked, error, rfl, rfl, tries, insertLoop_cons_error tries _⟩
          | ok inserted =>
              obtain ⟨prepared, undo⟩ := inserted
              rw [insertLoop_cons_ok tries]
              rcases inductionHypothesis (index + 1) tracked
                (before ++ [prepared]) (undone ++ [undo]) with
                accepts |
                ⟨front, failing, back, reached, accepted, rollbacks, final,
                  error, rfl, accepts, fails, ends⟩
              · exact .inl accepts
              · have place :
                    index + 1 + front.length =
                      index + (document :: front).length := by
                  rw [List.length_cons]
                  omega
                rw [place] at fails ends
                refine .inr ⟨document :: front, failing, back, reached,
                  accepted, rollbacks, final, error, rfl, ?_, fails, ends⟩
                rw [insertLoop_cons_ok tries]
                exact accepts

end Loop

/-- Inserts that the indexes of a collection have accepted: the documents with
them, and what the rollbacks lead back to. -/
structure Accepted
    (collection reached : Collection)
    (accepted : List PreparedInsert)
    (rollbacks : List (List UndoStep))
    (documents : Documents) : Prop where
  shape : reached = { collection with indexes := reached.indexes }
  definitions :
    IndexSet.SameDefinitions collection.indexes reached.indexes
  stored : documents.Stored
  represents : reached.indexes.Represents documents
  distinguishes : collection.indexes.Distinguishes documents
  undo :
    ∀ other : IndexSet, other.keys = collection.indexes.keys →
      other.Represents documents →
        (IndexSet.rollback rollbacks.flatten other).Represents
          collection.decoded
  fresh : ∀ prepared ∈ accepted, prepared.key ∉ collection.documents.keys
  distinct : (accepted.map PreparedInsert.key).Nodup
  decodes :
    ∀ prepared ∈ accepted, ∃ document,
      decodeDocument prepared.encoded = .ok document
  mem_documents :
    ∀ key document, (key, document) ∈ documents ↔
      collection.Stores key document ∨
        ∃ prepared ∈ accepted, prepared.key = key ∧
          decodeDocument prepared.encoded = .ok document

section Accepting

variable
  {collection reached tracked : Collection}
  {accepted : List PreparedInsert}
  {rollbacks : List (List UndoStep)}
  {documents : Documents}

/-- Nothing is accepted at the start. -/
theorem accepted_start
    (isExact : collection.Exact) :
    Accepted collection collection [] [] collection.decoded :=
  { shape := rfl
    definitions := ⟨rfl, fun _ => rfl⟩
    stored := isExact.stored_decoded
    represents := isExact.represents
    distinguishes := isExact.distinguishes
    undo := fun _ _ represents => represents
    fresh := nofun
    distinct := List.nodup_nil
    decodes := nofun
    mem_documents := fun key document => by simp [mem_decoded] }

/-- What an insert into a collection with indexes comes to. -/
theorem tryInsert_indexed
    {pending : List JsString}
    {generated : CustomId}
    {document : Document}
    {prepared : PreparedInsert}
    {after : Document}
    (notEmpty : IndexSet.isEmpty collection.indexes = false)
    (prepares :
      collection.prepareInsert pending generated document = .ok prepared)
    (decodes : decodeDocument prepared.encoded = .ok after) :
    collection.tryInsert pending generated document =
      ((collection.trackChanges [⟨prepared.key, none, some after⟩]).1,
        (collection.trackChanges [⟨prepared.key, none, some after⟩]).2.map
          fun undo => (prepared, undo)) := by
  unfold tryInsert trackInsert
  simp only [prepares, decodes, notEmpty, Bool.false_eq_true, if_false]

/-- An insert that is accepted by a collection with indexes. -/
theorem tryInsert_accepted
    {pending : List JsString}
    {generated : CustomId}
    {document : Document}
    {prepared : PreparedInsert}
    {undo : List UndoStep}
    (notEmpty : IndexSet.isEmpty collection.indexes = false)
    (tries :
      collection.tryInsert pending generated document =
        (tracked, .ok (prepared, undo))) :
    ∃ after,
      collection.prepareInsert pending generated document = .ok prepared ∧
        decodeDocument prepared.encoded = .ok after ∧
        collection.trackChanges [⟨prepared.key, none, some after⟩] =
          (tracked, .ok undo) := by
  rcases tryInsert_cases tries with
    ⟨-, _, isError⟩ | ⟨found, tracking, prepares, tracks, isResult⟩
  · cases isError
  · cases tracking with
    | error error =>
        cases isResult
    | ok steps =>
        obtain ⟨rfl, rfl⟩ := Prod.mk.inj (Except.ok.inj isResult)
        unfold trackInsert at tracks
        rw [if_neg (by simp [notEmpty])] at tracks
        split at tracks
        · cases (Prod.mk.inj tracks).2
        · rename_i after decodes
          exact ⟨after, prepares, decodes, tracks⟩

/-- A prepared insert has a new key. -/
theorem Accepted.fresh_key
    {generated : CustomId}
    {document : Document}
    {prepared : PreparedInsert}
    (isAccepted :
      Accepted collection reached accepted rollbacks documents)
    (prepares :
      reached.prepareInsert (accepted.map PreparedInsert.key) generated
        document = .ok prepared) :
    prepared.key ∉ collection.documents.keys := by
  have fresh := (prepareInsert_ok prepares).1.fresh
  rw [isAccepted.shape] at fresh
  exact fresh

/-- An insert is a batch over the documents that are accepted so far. -/
theorem Accepted.batch
    {generated : CustomId}
    {document after : Document}
    {prepared : PreparedInsert}
    (isAccepted :
      Accepted collection reached accepted rollbacks documents)
    (prepares :
      reached.prepareInsert (accepted.map PreparedInsert.key) generated
        document = .ok prepared)
    (decodes : decodeDocument prepared.encoded = .ok after) :
    Batch documents [⟨prepared.key, none, some after⟩] := by
  obtain ⟨isPrepared, notPending⟩ := prepareInsert_ok prepares
  have fresh := isAccepted.fresh_key prepares
  refine ⟨by simp, ?_, ?_⟩
  · intro change member other
    obtain rfl := List.mem_singleton.mp member
    simp only [isAccepted.mem_documents]
    constructor
    · nofun
    · rintro (stores | ⟨older, isOlder, isKey, -⟩)
      · exact absurd stores.mem_keys fresh
      · exact absurd (List.mem_map.mpr ⟨older, isOlder, isKey⟩) notPending
  · intro change member other isAfter
    obtain rfl := List.mem_singleton.mp member
    obtain rfl := Option.some.inj isAfter
    exact fun _ _ =>
      hasKey_of_resolveField (isPrepared.stored.decoded decodes).1

/-- The documents with one more insert. -/
theorem Accepted.mem_changed
    {generated : CustomId}
    {document after : Document}
    {prepared : PreparedInsert}
    (isAccepted :
      Accepted collection reached accepted rollbacks documents)
    (prepares :
      reached.prepareInsert (accepted.map PreparedInsert.key) generated
        document = .ok prepared)
    (decodes : decodeDocument prepared.encoded = .ok after)
    (key : JsString)
    (other : Document) :
    (key, other) ∈
        documents.changed [⟨prepared.key, none, some after⟩] ↔
      collection.Stores key other ∨
        ∃ inserted ∈ accepted ++ [prepared], inserted.key = key ∧
          decodeDocument inserted.encoded = .ok other := by
  have fresh := isAccepted.fresh_key prepares
  have notPending := (prepareInsert_ok prepares).2
  rw [Documents.changed, List.mem_append, mem_written, List.mem_filter,
    isAccepted.mem_documents]
  simp only [List.map_cons, List.map_nil, List.mem_singleton,
    decide_eq_true_eq]
  constructor
  · rintro (⟨change, rfl, rfl, isAfter⟩ | ⟨isOlder, -⟩)
    · obtain rfl := Option.some.inj isAfter
      exact .inr ⟨prepared, by simp, rfl, decodes⟩
    · rcases isOlder with stores | ⟨older, member, isEntry⟩
      · exact .inl stores
      · exact .inr ⟨older, List.mem_append_left _ member, isEntry⟩
  · rintro (stores | ⟨inserted, member, rfl, isEntry⟩)
    · refine .inr ⟨.inl stores, ?_⟩
      rintro rfl
      exact fresh stores.mem_keys
    · rcases List.mem_append.mp member with isOlder | isNew
      · refine .inr ⟨.inr ⟨inserted, isOlder, rfl, isEntry⟩, ?_⟩
        intro same
        exact notPending (List.mem_map.mpr ⟨inserted, isOlder, same⟩)
      · obtain rfl := List.mem_singleton.mp isNew
        obtain rfl := Except.ok.inj (decodes.symm.trans isEntry)
        exact .inl ⟨_, rfl, rfl, rfl⟩

/-- One more insert is accepted. -/
theorem Accepted.snoc
    {generated : CustomId}
    {document : Document}
    {prepared : PreparedInsert}
    {undo : List UndoStep}
    (isAccepted :
      Accepted collection reached accepted rollbacks documents)
    (notEmpty : IndexSet.isEmpty collection.indexes = false)
    (tries :
      reached.tryInsert (accepted.map PreparedInsert.key) generated document =
        (tracked, .ok (prepared, undo))) :
    ∃ after, decodeDocument prepared.encoded = .ok after ∧
      Accepted collection tracked (accepted ++ [prepared])
        (rollbacks ++ [undo])
        (documents.changed [⟨prepared.key, none, some after⟩]) := by
  have reachedNotEmpty : IndexSet.isEmpty reached.indexes = false :=
    (isEmpty_of_definitions isAccepted.definitions).trans notEmpty
  obtain ⟨after, prepares, decodes, tracks⟩ :=
    tryInsert_accepted reachedNotEmpty tries
  have batch := isAccepted.batch prepares decodes
  have notPending := (prepareInsert_ok prepares).2
  obtain ⟨shape, applies⟩ := trackChanges_eq tracks
  have definitions :=
    IndexSet.sameDefinitions_applyChanges reached.indexes
      [⟨prepared.key, none, some after⟩]
  rw [applies] at definitions
  have fresh := isAccepted.fresh_key prepares
  refine ⟨after, decodes, ?_⟩
  exact
    { shape := by
        rw [shape, isAccepted.shape]
      definitions := isAccepted.definitions.trans definitions
      stored := stored_changed isAccepted.stored batch
      represents :=
        IndexSet.represents_changed isAccepted.stored isAccepted.represents
          batch applies
      distinguishes := by
        have allowed :=
          (IndexSet.applyChanges_isOk_iff isAccepted.stored
            isAccepted.represents
            (isAccepted.definitions.distinguishes isAccepted.distinguishes)
            batch).mp (by
              rw [applies]
              rfl)
        exact isAccepted.definitions.symm.distinguishes allowed
      undo := by
        intro other keys represents
        rw [List.flatten_append, List.flatten_singleton]
        unfold IndexSet.rollback
        rw [List.reverse_append, List.foldl_append]
        refine isAccepted.undo _ ?_ ?_
        · exact (IndexSet.keys_rollback undo other).trans keys
        · exact IndexSet.represents_undo isAccepted.stored batch applies
            (keys.trans isAccepted.definitions.keys.symm) represents
      fresh := by
        intro other member
        rcases List.mem_append.mp member with isOlder | isNew
        · exact isAccepted.fresh other isOlder
        · obtain rfl := List.mem_singleton.mp isNew
          exact fresh
      distinct := by
        rw [List.map_append, List.nodup_append]
        refine ⟨isAccepted.distinct, by simp, ?_⟩
        rintro key isOlder other isNew rfl
        obtain rfl := List.mem_singleton.mp isNew
        exact notPending isOlder
      decodes := by
        intro other member
        rcases List.mem_append.mp member with isOlder | isNew
        · exact isAccepted.decodes other isOlder
        · obtain rfl := List.mem_singleton.mp isNew
          exact ⟨after, decodes⟩
      mem_documents := isAccepted.mem_changed prepares decodes }

/-- The loop up to where it has accepted everything. -/
theorem Accepted.insertLoop
    {generated : Nat → CustomId}
    {front : List Document}
    {index : Nat}
    {start : Collection}
    {before : List PreparedInsert}
    {undone : List (List UndoStep)}
    (isAccepted : Accepted collection start before undone documents)
    (notEmpty : IndexSet.isEmpty collection.indexes = false)
    (accepts :
      Collection.insertLoop generated front index start before undone =
        (reached, .ok ⟨accepted, rollbacks, none⟩)) :
    ∃ documents,
      Accepted collection reached accepted rollbacks documents := by
  induction front generalizing index start before undone documents with
  | nil =>
      obtain ⟨rfl, isBatch⟩ := Prod.mk.inj accepts
      obtain ⟨rfl, rfl, -⟩ := InsertBatch.mk.inj (Except.ok.inj isBatch)
      exact ⟨documents, isAccepted⟩
  | cons document later inductionHypothesis =>
      cases tries : start.tryInsert (before.map PreparedInsert.key)
          (generated index) document with
      | mk tracked result =>
          cases result with
          | error error =>
              rw [insertLoop_cons_error tries] at accepts
              exact absurd (Prod.mk.inj accepts).2 stopped_ne
          | ok inserted =>
              rw [insertLoop_cons_ok tries] at accepts
              obtain ⟨after, -, next⟩ := isAccepted.snoc notEmpty tries
              exact inductionHypothesis next accepts

/-- What the indexes represent while inserts are tracked, wherever the loop is
about to stop. -/
structure Stands
    (collection final : Collection)
    (documents : Documents) : Prop where
  shape : final = { collection with indexes := final.indexes }
  definitions :
    IndexSet.SameDefinitions collection.indexes final.indexes
  represents : final.indexes.Represents documents

/-- An insert that fails leaves what is accepted so far. -/
theorem Accepted.failed
    {generated : CustomId}
    {document : Document}
    {error : Thrown}
    (isAccepted :
      Accepted collection reached accepted rollbacks documents)
    (notEmpty : IndexSet.isEmpty collection.indexes = false)
    (fails :
      reached.tryInsert (accepted.map PreparedInsert.key) generated document =
        (tracked, .error error)) :
    Stands collection tracked documents := by
  have reachedNotEmpty : IndexSet.isEmpty reached.indexes = false :=
    (isEmpty_of_definitions isAccepted.definitions).trans notEmpty
  have stands : Stands collection reached documents :=
    ⟨isAccepted.shape, isAccepted.definitions, isAccepted.represents⟩
  rcases tryInsert_cases fails with
    ⟨rfl, -⟩ | ⟨prepared, tracking, prepares, tracks, isResult⟩
  · exact stands
  · cases decodes : decodeDocument prepared.encoded with
    | error decodeError =>
        unfold trackInsert at tracks
        rw [if_neg (by simp [reachedNotEmpty]), decodes] at tracks
        obtain ⟨rfl, -⟩ := Prod.mk.inj tracks
        exact stands
    | ok after =>
        have batch := isAccepted.batch prepares decodes
        unfold trackInsert at tracks
        rw [if_neg (by simp [reachedNotEmpty]), decodes] at tracks
        obtain ⟨shape, applies⟩ := trackChanges_eq tracks
        have definitions :=
          IndexSet.sameDefinitions_applyChanges reached.indexes
            [⟨prepared.key, none, some after⟩]
        rw [applies] at definitions
        cases tracking with
        | ok undo =>
            cases isResult
        | error refusal =>
            refine ⟨?_, isAccepted.definitions.trans definitions, ?_⟩
            · rw [shape, isAccepted.shape]
            · exact IndexSet.represents_refused isAccepted.stored
                isAccepted.represents batch applies

/-- The entries after prepared inserts have been put. -/
theorem mem_putAll_prepared
    {prepared : List PreparedInsert}
    (fresh : ∀ insert ∈ prepared, insert.key ∉ collection.documents.keys)
    (distinct : (prepared.map PreparedInsert.key).Nodup)
    (entry : JsString × Bytes) :
    entry ∈ (collection.putAll (prepared.map fun insert =>
        (insert.key, insert.encoded))).documents.entries ↔
      entry ∈ collection.documents.entries ∨
        ∃ insert ∈ prepared, entry = (insert.key, insert.encoded) := by
  have keys :
      (prepared.map fun insert =>
        (insert.key, insert.encoded)).map Prod.fst =
          prepared.map PreparedInsert.key := by
    rw [List.map_map]
    rfl
  rw [putAll_documents, JsMap.mem_entries_foldl_set_iff (by rwa [keys]), keys]
  constructor
  · rintro (isNew | ⟨stored, -⟩)
    · obtain ⟨insert, member, rfl⟩ := List.mem_map.mp isNew
      exact .inr ⟨insert, member, rfl⟩
    · exact .inl stored
  · rintro (stored | ⟨insert, member, rfl⟩)
    · refine .inr ⟨stored, ?_⟩
      intro isKey
      obtain ⟨insert, member, same⟩ := List.mem_map.mp isKey
      exact fresh insert member (same ▸ List.mem_map_of_mem stored)
    · exact .inl (List.mem_map.mpr ⟨insert, member, rfl⟩)

/-- The documents after the accepted inserts have been put. -/
theorem Accepted.mem_putAll
    (isAccepted :
      Accepted collection reached accepted rollbacks documents)
    {final : Collection}
    (same : final.documents = collection.documents)
    (entry : JsString × Bytes) :
    entry ∈ (final.putAll (accepted.map fun prepared =>
        (prepared.key, prepared.encoded))).documents.entries ↔
      entry ∈ collection.documents.entries ∨
        ∃ prepared ∈ accepted, entry = (prepared.key, prepared.encoded) := by
  rw [← same]
  refine mem_putAll_prepared ?_ isAccepted.distinct entry
  rw [same]
  exact isAccepted.fresh

/-- The accepted inserts that have been put are the documents that the indexes
represent. -/
theorem Accepted.perm_putAll
    (isAccepted :
      Accepted collection reached accepted rollbacks documents)
    {final : Collection}
    (same : final.documents = collection.documents) :
    (final.putAll (accepted.map fun prepared =>
      (prepared.key, prepared.encoded))).decoded.Perm documents := by
  have own :=
    (final.putAll (accepted.map fun prepared =>
      (prepared.key, prepared.encoded))).documents.nodup_keys.sublist
        (keys_decoded_sublist _)
  rw [List.perm_ext_iff_of_nodup (List.Nodup.of_map _ own)
    (List.Nodup.of_map _ isAccepted.stored.distinct)]
  rintro ⟨key, document⟩
  rw [mem_decoded, isAccepted.mem_documents]
  unfold Stores
  simp only [isAccepted.mem_putAll same]
  constructor
  · rintro ⟨encoded, stored | ⟨prepared, member, isEntry⟩, decodes⟩
    · exact .inl ⟨encoded, stored, decodes⟩
    · obtain ⟨rfl, rfl⟩ := Prod.mk.inj isEntry
      exact .inr ⟨prepared, member, rfl, decodes⟩
  · rintro (⟨encoded, stored, decodes⟩ | ⟨prepared, member, rfl, decodes⟩)
    · exact ⟨encoded, .inl stored, decodes⟩
    · exact ⟨prepared.encoded, .inr ⟨prepared, member, rfl⟩, decodes⟩

end Accepting

/--
A batch of inserts that is not undone: behind documents that are accepted comes
one whose encoding cannot be decoded.
-/
def Spoils
    (collection : Collection)
    (generated : Nat → CustomId)
    (documents : List Document) : Prop :=
  IndexSet.isEmpty collection.indexes = false ∧
    ∃ front document back reached accepted rollbacks prepared error,
      documents = front ++ document :: back ∧ front ≠ [] ∧
        insertLoop generated front 0 collection [] [] =
          (reached, .ok ⟨accepted, rollbacks, none⟩) ∧
        collection.prepareInsert (accepted.map PreparedInsert.key)
          (generated front.length) document = .ok prepared ∧
        decodeDocument prepared.encoded = .error error

section Failing

variable
  {collection tracked : Collection}
  {pending : List JsString}
  {generated : CustomId}
  {document : Document}
  {error : Thrown}

/-- An insert that cannot be prepared throws a `StorageError`. -/
theorem storage_of_prepareInsert
    (fails :
      collection.prepareInsert pending generated document = .error error) :
    ∃ storageError, error = .storage storageError := by
  unfold prepareInsert at fails
  cases isId : resolveDocumentId generated document with
  | error idError =>
      rw [isId] at fails
      obtain rfl := Except.error.inj fails
      unfold resolveDocumentId at isId
      split at isId
      · cases isId
      · cases isId
      · exact ⟨_, (Except.error.inj isId).symm⟩
  | ok id =>
      rw [isId] at fails
      simp only [Result.ok_bind] at fails
      split_ifs at fails
      · exact ⟨_, (Except.error.inj fails).symm⟩
      · cases encodes : encodeStoredDocument
            (Document.set document idField (.customId id)) with
        | ok encoded =>
            rw [encodes] at fails
            cases fails
        | error encodeError =>
            rw [encodes] at fails
            obtain rfl := Except.error.inj fails
            unfold encodeStoredDocument at encodes
            split at encodes
            · cases encodes
            · exact ⟨_, (Except.error.inj encodes).symm⟩

/-- A batch that is refused throws a `StorageError`. -/
theorem storage_of_trackChanges
    {changes : List DocumentChange}
    (refuses : collection.trackChanges changes = (tracked, .error error)) :
    ∃ storageError, error = .storage storageError := by
  obtain ⟨-, -, -, conflict, -, -, -, isError, -⟩ :=
    IndexSet.applyChanges_refused (trackChanges_eq refuses).2
  exact ⟨_, isError⟩

/-- An insert that throws another error could not be decoded. -/
theorem decode_error_of_tryInsert
    (fails :
      collection.tryInsert pending generated document =
        (tracked, .error error))
    (notStorage : ∀ storageError, error ≠ .storage storageError) :
    ∃ prepared decodeError,
      collection.prepareInsert pending generated document = .ok prepared ∧
        decodeDocument prepared.encoded = .error decodeError := by
  unfold tryInsert at fails
  split at fails
  · rename_i prepareError prepares
    obtain ⟨-, isError⟩ := Prod.mk.inj fails
    obtain rfl := Except.error.inj isError
    obtain ⟨storageError, rfl⟩ := storage_of_prepareInsert prepares
    exact absurd rfl (notStorage storageError)
  · rename_i prepared prepares
    cases decodes : decodeDocument prepared.encoded with
    | error decodeError =>
        exact ⟨prepared, decodeError, prepares, decodes⟩
    | ok after =>
        unfold trackInsert at fails
        rw [decodes] at fails
        split_ifs at fails
        · cases (Prod.mk.inj fails).2
        · cases tracks : collection.trackChanges
              [⟨prepared.key, none, some after⟩] with
          | mk next tracking =>
              simp only [tracks] at fails
              cases tracking with
              | ok undo =>
                  cases (Prod.mk.inj fails).2
              | error refusal =>
                  obtain ⟨-, isError⟩ := Prod.mk.inj fails
                  obtain rfl := Except.error.inj isError
                  obtain ⟨storageError, rfl⟩ := storage_of_trackChanges tracks
                  exact absurd rfl (notStorage storageError)

end Failing

/-- The error is a `StorageInsertManyError`. -/
def IsInsertMany : Thrown → Prop
  | .storage error => error.insertMany.isSome = true
  | _ => False

/-- A sound collection that a write leaves has exact indexes, and everything
is as it was if the write has thrown. -/
def Atomic
    {α : Type}
    (collection : Collection)
    (write : Write α) : Prop :=
  ∀ answer,
    ((write.run answer).1.Sound → (write.run answer).1.Exact) ∧
      ∀ error, (write.run answer).2 = .error error → ¬ IsInsertMany error →
        collection.Same (write.run answer).1

section Rules

variable
  {α β : Type}
  {collection tracked : Collection}

/-- A write that throws at once. -/
theorem atomic_done
    {result : Except Thrown α}
    (isExact : collection.Exact) :
    collection.Atomic (.done collection result) :=
  fun _ => ⟨fun _ => isExact, fun _ _ _ => isExact.same⟩

/-- Using the result of a write further. -/
theorem atomic_map
    {write : Write α}
    (atomic : collection.Atomic write)
    (use : α → β) :
    collection.Atomic (write.map use) := by
  intro answer
  have same : ((write.map use).run answer).1 = (write.run answer).1 := by
    cases write <;> rfl
  have mapped :
      ((write.map use).run answer).2 = (write.run answer).2.map use := by
    cases write <;> rfl
  rw [same, mapped]
  refine ⟨(atomic answer).1, fun error throws => (atomic answer).2 error ?_⟩
  cases result : (write.run answer).2 with
  | error other =>
      rw [result] at throws
      obtain rfl := Except.error.inj throws
      rfl
  | ok value =>
      rw [result] at throws
      cases throws

/-- A write that may stop early. -/
theorem atomic_attempt
    {result : Except Thrown α}
    {next : α → Write β}
    (isExact : collection.Exact)
    (later :
      ∀ value, result = .ok value → collection.Atomic (next value)) :
    collection.Atomic (collection.attempt result next) := by
  cases result with
  | error error =>
      exact atomic_done isExact
  | ok value =>
      exact later value rfl

/-- The last part of a write. -/
theorem atomic_commit
    {undo : List UndoStep}
    {operations : List JournalOperation}
    {change : Collection → Collection}
    {result : Except Thrown α}
    (isExact : collection.Exact)
    (succeeds : (change tracked).Sound → (change tracked).Exact)
    (outcome : ∀ error, result = .error error → IsInsertMany error)
    (fails : collection.Same (tracked.rollback undo)) :
    collection.Atomic (tracked.commit undo operations change result) := by
  have done :
      ((change tracked).Sound → (change tracked).Exact) ∧
        ∀ error, result = .error error → ¬ IsInsertMany error →
          collection.Same (change tracked) :=
    ⟨succeeds, fun error isError other =>
      absurd (outcome error isError) other⟩
  unfold commit
  split_ifs
  · exact fun _ => done
  · intro answer
    cases answer with
    | ok _ =>
        exact done
    | error error =>
        exact ⟨fails.exact isExact, fun _ _ _ => fails⟩

end Rules

section Many

variable
  {collection final : Collection}
  {generated : Nat → CustomId}
  {documents : List Document}

/-- Without indexes there is nothing to represent. -/
theorem exact_of_isEmpty
    (sound : collection.Sound)
    (empty : IndexSet.isEmpty collection.indexes = true) :
    collection.Exact := by
  refine ⟨sound, ?_, IndexSet.represents_of_isEmpty empty _,
    IndexSet.distinguishes_of_isEmpty empty _⟩
  intro notEmpty
  rw [empty] at notEmpty
  cases notEmpty

/-- Without indexes an insert tracks nothing. -/
theorem tryInsert_of_isEmpty
    {pending : List JsString}
    {generated : CustomId}
    {document : Document}
    (empty : IndexSet.isEmpty collection.indexes = true) :
    collection.tryInsert pending generated document =
      (collection,
        (collection.prepareInsert pending generated document).map
          fun prepared => (prepared, [])) := by
  unfold tryInsert trackInsert
  simp only [if_pos empty]
  cases collection.prepareInsert pending generated document <;> rfl

/-- Without indexes the loop of `insertMany` changes nothing, and its errors
are all caught. -/
theorem insertLoop_of_isEmpty
    {index : Nat}
    {before : List PreparedInsert}
    {undone : List (List UndoStep)}
    (empty : IndexSet.isEmpty collection.indexes = true)
    (nothing : undone.flatten = []) :
    ∃ batch,
      insertLoop generated documents index collection before undone =
          (collection, .ok batch) ∧
        batch.rollbacks.flatten = [] := by
  induction documents generalizing index before undone with
  | nil =>
      exact ⟨_, rfl, nothing⟩
  | cons document rest inductionHypothesis =>
      have tries :=
        @tryInsert_of_isEmpty collection (before.map PreparedInsert.key)
          (generated index) document empty
      cases prepares : collection.prepareInsert
          (before.map PreparedInsert.key) (generated index) document with
      | error error =>
          rw [prepares] at tries
          obtain ⟨storageError, rfl⟩ := storage_of_prepareInsert prepares
          exact ⟨_, insertLoop_cons_error tries rest, nothing⟩
      | ok prepared =>
          rw [prepares] at tries
          rw [insertLoop_cons_ok tries]
          exact inductionHypothesis (by simp [nothing])

/-- The result of a batch of inserts is an error only if it stopped. -/
theorem isInsertMany_insertManyError
    (index : Nat)
    (ids : List CustomId)
    (error : StorageError) :
    IsInsertMany (insertManyError index ids error) :=
  rfl

/-- Tracked inserts that are put or rolled back. -/
theorem Accepted.atomic_commit
    {α : Type}
    {reached tracked : Collection}
    {accepted : List PreparedInsert}
    {rollbacks : List (List UndoStep)}
    {tracking : Documents}
    {operations : List JournalOperation}
    {result : Except Thrown α}
    (isExact : collection.Exact)
    (isAccepted :
      Accepted collection reached accepted rollbacks tracking)
    (stands : Stands collection tracked tracking)
    (outcome : ∀ error, result = .error error → IsInsertMany error) :
    collection.Atomic
      (tracked.commit rollbacks.flatten operations
        (fun final => final.putAll (accepted.map fun prepared =>
          (prepared.key, prepared.encoded)))
        result) := by
  have sameDocuments : tracked.documents = collection.documents := by
    rw [stands.shape]
  refine Collection.atomic_commit isExact ?_ outcome ?_
  · intro sound
    have perm := (isAccepted.perm_putAll sameDocuments).symm
    refine ⟨sound, ?_, ?_, ?_⟩
    · intro notEmpty
      rw [putAll_indexes, isEmpty_of_definitions stands.definitions]
        at notEmpty
      intro entry member
      rcases (isAccepted.mem_putAll sameDocuments entry).mp member with
        stored | ⟨prepared, inAccepted, rfl⟩
      · exact isExact.decodes notEmpty entry stored
      · exact isAccepted.decodes prepared inAccepted
    · rw [putAll_indexes]
      intro name index found
      exact (stands.represents name index found).perm perm
    · rw [putAll_indexes]
      exact stands.definitions.distinguishes
        (isAccepted.distinguishes.perm perm)
  · refine ⟨sameDocuments, ?_, ?_⟩
    · exact stands.definitions.trans (IndexSet.sameDefinitions_rollback _ _)
    · exact isAccepted.undo _ stands.definitions.keys stands.represents

/-- `insertMany` on a collection without indexes. -/
theorem atomic_insertMany_of_isEmpty
    (isExact : collection.Exact)
    (empty : IndexSet.isEmpty collection.indexes = true) :
    collection.Atomic (collection.insertMany generated documents) := by
  unfold insertMany
  split_ifs
  · exact atomic_done isExact
  · obtain ⟨batch, loops, nothing⟩ :=
      @insertLoop_of_isEmpty collection generated documents 0 [] [] empty rfl
    simp only [loops, nothing]
    refine Collection.atomic_commit isExact ?_ ?_ ?_
    · intro sound
      refine exact_of_isEmpty sound ?_
      rw [putAll_indexes, empty]
    · intro error isError
      split at isError
      · obtain rfl := Except.error.inj isError
        exact isInsertMany_insertManyError _ _ _
      · cases isError
    · exact isExact.same

/-- Only a spoiled batch throws behind documents that it has accepted. -/
theorem same_of_unspoiled
    {front back : List Document}
    {document : Document}
    {reached : Collection}
    {accepted : List PreparedInsert}
    {rollbacks : List (List UndoStep)}
    {error : Thrown}
    (isExact : collection.Exact)
    (notEmpty : IndexSet.isEmpty collection.indexes = false)
    (unspoiled :
      ¬ collection.Spoils generated (front ++ document :: back))
    (accepts :
      insertLoop generated front 0 collection [] [] =
        (reached, .ok ⟨accepted, rollbacks, none⟩))
    (fails :
      reached.tryInsert (accepted.map PreparedInsert.key)
        (generated front.length) document = (final, .error error))
    (notStorage : ∀ storageError, error ≠ .storage storageError) :
    collection.Same final := by
  obtain ⟨prepared, decodeError, prepares, decodes⟩ :=
    decode_error_of_tryInsert fails notStorage
  by_cases first : front = []
  · subst first
    obtain ⟨rfl, isBatch⟩ := Prod.mk.inj accepts
    obtain ⟨rfl, rfl, -⟩ := InsertBatch.mk.inj (Except.ok.inj isBatch)
    have stands := (accepted_start isExact).failed notEmpty fails
    refine ⟨?_, stands.definitions, stands.represents⟩
    rw [stands.shape]
  · obtain ⟨tracking, isAccepted⟩ :=
      (accepted_start isExact).insertLoop notEmpty accepts
    rw [isAccepted.shape] at prepares
    exact absurd
      ⟨notEmpty, front, document, back, reached, accepted, rollbacks,
        prepared, decodeError, rfl, first, accepts, prepares, decodes⟩
      unspoiled

/-- `insertMany` on a collection with indexes. -/
theorem atomic_insertMany_of_indexed
    (isExact : collection.Exact)
    (notEmpty : IndexSet.isEmpty collection.indexes = false)
    (unspoiled : ¬ collection.Spoils generated documents) :
    collection.Atomic (collection.insertMany generated documents) := by
  unfold insertMany
  split_ifs
  · exact atomic_done isExact
  · rcases insertLoop_cases generated documents 0 collection [] [] with
      ⟨reached, accepted, rollbacks, loops⟩ |
      ⟨front, document, back, reached, accepted, rollbacks, final, error,
        rfl, accepts, fails, loops⟩
    · obtain ⟨tracking, isAccepted⟩ :=
        (accepted_start isExact).insertLoop notEmpty loops
      simp only [loops]
      refine isAccepted.atomic_commit isExact
        ⟨isAccepted.shape, isAccepted.definitions, isAccepted.represents⟩ ?_
      nofun
    · obtain ⟨tracking, isAccepted⟩ :=
        (accepted_start isExact).insertLoop notEmpty accepts
      have stands := isAccepted.failed notEmpty fails
      simp only [loops, Nat.zero_add]
      rw [Nat.zero_add] at fails
      by_cases isStorage : ∃ storageError, error = .storage storageError
      · obtain ⟨storageError, rfl⟩ := isStorage
        refine isAccepted.atomic_commit isExact stands ?_
        intro other isError
        obtain rfl := Except.error.inj isError
        exact isInsertMany_insertManyError _ _ _
      · have notStorage :
            ∀ storageError, error ≠ .storage storageError := by
          intro storageError isError
          exact isStorage ⟨storageError, isError⟩
        have same :=
          same_of_unspoiled isExact notEmpty unspoiled accepts fails
            notStorage
        have throws :
            stopped accepted rollbacks front.length error =
              .error error := by
          cases error with
          | storage storageError =>
              exact absurd rfl (notStorage storageError)
          | protocol _ =>
              rfl
          | other _ =>
              rfl
        simp only [throws]
        exact fun _ => ⟨same.exact isExact, fun _ _ _ => same⟩

/-- A batch of inserts that is not spoiled. -/
theorem atomic_insertMany
    (isExact : collection.Exact)
    (unspoiled : ¬ collection.Spoils generated documents) :
    collection.Atomic (collection.insertMany generated documents) := by
  cases empty : IndexSet.isEmpty collection.indexes with
  | true =>
      exact atomic_insertMany_of_isEmpty isExact empty
  | false =>
      exact atomic_insertMany_of_indexed isExact empty unspoiled

end Many

end Collection

end SinterDb
