import SinterDb.Storage.CollectionInvariant

namespace SinterDb

open Unicode

/-!
# Every operation keeps a collection sound

Whatever the journal answers, and whatever an operation throws, the collection
is sound afterwards.
-/

namespace Collection

section Replacing

variable
  {collection : Collection}

/-- Tracked changes that are carried out, rolled back or refused. -/
theorem ensures_trackAndCommit
    {α : Type}
    {changes : List DocumentChange}
    {operations : List JournalOperation}
    {change : Collection → Collection}
    {result : α}
    (sound : collection.Sound)
    (keyed : IndexSet.KeyedChanges changes)
    (faithful : collection.Faithful changes)
    (carriedOut :
      ∀ tracked undo, collection.trackChanges changes = (tracked, .ok undo) →
        (change tracked).Sound) :
    (collection.trackAndCommit changes operations change result).Ensures
      Sound := by
  unfold trackAndCommit
  split
  · rename_i tracked error tracks
    exact fun _ => sound_of_refused sound keyed faithful tracks
  · rename_i tracked undo tracks
    exact ensures_commit (carriedOut tracked undo tracks)
      (sound_of_rollback sound keyed faithful tracks)

/-- Removing located documents from the indexes and from the collection. -/
theorem ensures_removal
    {α : Type}
    {located : List LocatedDocument}
    {changes : List DocumentChange}
    {operations : List JournalOperation}
    {change : Collection → Collection}
    {result : α}
    (sound : collection.Sound)
    (isLocated : ∀ entry ∈ located, collection.IsLocated entry)
    (isChange :
      ∀ change ∈ changes, ∃ entry ∈ located,
        change = ⟨entry.key, some entry.document, none⟩)
    (removes :
      ∀ tracked, change tracked =
        tracked.removeAll (located.map LocatedDocument.key)) :
    (collection.trackAndCommit changes operations change result).Ensures
      Sound := by
  have keyed : IndexSet.KeyedChanges changes := by
    intro change member
    obtain ⟨entry, inLocated, rfl⟩ := isChange change member
    refine ⟨?_, by simp⟩
    rintro _ ⟨⟩
    exact sound.keyed (isLocated entry inLocated).stored
      (isLocated entry inLocated).decodes
  have faithful : collection.Faithful changes := by
    intro change member document stores
    obtain ⟨entry, inLocated, rfl⟩ := isChange change member
    rw [(isLocated entry inLocated).document_eq stores]
  refine ensures_trackAndCommit sound keyed faithful ?_
  intro tracked undo tracks
  have shape := (trackChanges_eq tracks).1
  rw [removes]
  obtain ⟨indexes, entries⟩ :=
    removeAll_spec tracked (located.map LocatedDocument.key)
  have wasStored :
      ∀ key encoded,
        (key, encoded) ∈ (tracked.removeAll
          (located.map LocatedDocument.key)).documents.entries →
        (key, encoded) ∈ collection.documents.entries ∧
          key ∉ located.map LocatedDocument.key := by
    intro key encoded member
    rw [entries, List.mem_filter, shape] at member
    exact ⟨member.1, by simpa using member.2⟩
  refine sound_of_tracked sound keyed tracks indexes
    (sequenced_removeAll (sequenced_of_tracked sound keyed tracks) _) ?_ ?_
  · intro key encoded member
    exact sound.stored key encoded (wasStored key encoded member).1
  · intro _ key encoded document member decodes
    obtain ⟨stored, notRemoved⟩ := wasStored key encoded member
    refine .inl ⟨stored, ?_⟩
    rintro ⟨change, inChanges, rfl, -⟩
    obtain ⟨entry, inLocated, rfl⟩ := isChange change inChanges
    exact notRemoved (List.mem_map_of_mem inLocated)

/-- `deleteOne` keeps a collection sound. -/
theorem ensures_deleteOne
    (sound : collection.Sound)
    (filter : Document) :
    (collection.deleteOne filter).Ensures Sound := by
  refine ensures_attempt sound fun test _ => ?_
  refine ensures_attempt sound fun located isLocated => ?_
  cases located with
  | none =>
      exact fun _ => sound
  | some located =>
      exact @ensures_removal collection Nat [located] _ _ _ _ sound
        (by simpa using isLocated_of_locate isLocated) (by simp)
        (fun _ => rfl)

/-- `deleteMany` keeps a collection sound. -/
theorem ensures_deleteMany
    (sound : collection.Sound)
    (filter : Document) :
    (collection.deleteMany filter).Ensures Sound := by
  refine ensures_attempt sound fun test _ => ?_
  refine ensures_attempt sound fun located isLocated => ?_
  refine ensures_removal sound
    (isLocated_of_allMatches (fun _ => mem_candidates) isLocated) ?_
    (fun _ => rfl)
  intro change member
  split_ifs at member
  · cases member
  · obtain ⟨entry, inLocated, rfl⟩ := List.mem_map.mp member
    exact ⟨entry, inLocated, rfl⟩

/-- Storing other encodings under the keys of stored documents. -/
theorem ensures_replacement
    {α : Type}
    {changes : List DocumentChange}
    {operations : List JournalOperation}
    {pending : List (JsString × Bytes)}
    {change : Collection → Collection}
    {result : α}
    (sound : collection.Sound)
    (isChange :
      ∀ change ∈ changes, ∃ located encoded after,
        collection.IsLocated located ∧ (located.key, encoded) ∈ pending ∧
          decodeDocument encoded = .ok after ∧
          change = ⟨located.key, some located.document, some after⟩)
    (stored : ∀ entry ∈ pending, StoredAs entry.1 entry.2)
    (tracksAll :
      IndexSet.isEmpty collection.indexes = false →
        ∀ entry ∈ pending, ∀ document,
          decodeDocument entry.2 = .ok document →
          ∃ change ∈ changes,
            change.key = entry.1 ∧ change.after = some document)
    (puts : ∀ tracked, change tracked = tracked.putAll pending) :
    (collection.trackAndCommit changes operations change result).Ensures
      Sound := by
  have keyed : IndexSet.KeyedChanges changes := by
    intro change member
    obtain ⟨located, encoded, after, isLocated, isPending, decodes, rfl⟩ :=
      isChange change member
    refine ⟨?_, ?_⟩
    · rintro _ ⟨⟩
      exact sound.keyed isLocated.stored isLocated.decodes
    · rintro _ ⟨⟩
      exact fun _ _ =>
        hasKey_of_resolveField ((stored _ isPending).decoded decodes).1
  have faithful : collection.Faithful changes := by
    intro change member document stores
    obtain ⟨located, encoded, after, isLocated, -, -, rfl⟩ :=
      isChange change member
    rw [isLocated.document_eq stores]
  refine ensures_trackAndCommit sound keyed faithful ?_
  intro tracked undo tracks
  have shape := (trackChanges_eq tracks).1
  rw [puts]
  have origin :
      ∀ key encoded,
        (key, encoded) ∈ (tracked.putAll pending).documents.entries →
        (key, encoded) ∈ pending ∨
          (key, encoded) ∈ collection.documents.entries ∧
            key ∉ pending.map Prod.fst := by
    intro key encoded member
    rw [putAll_documents, shape] at member
    exact JsMap.mem_entries_foldl_set member
  refine sound_of_tracked sound keyed tracks (putAll_indexes _ _)
    (sequenced_putAll (sequenced_of_tracked sound keyed tracks) _) ?_ ?_
  · intro key encoded member
    rcases origin key encoded member with isPending | ⟨wasStored, -⟩
    · exact stored _ isPending
    · exact sound.stored key encoded wasStored
  · intro notEmpty key encoded document member decodes
    rcases origin key encoded member with isPending | ⟨wasStored, notPending⟩
    · exact .inr (tracksAll notEmpty _ isPending document decodes)
    · refine .inl ⟨wasStored, ?_⟩
      rintro ⟨change, inChanges, rfl, -⟩
      obtain ⟨located, encoded, after, -, isPending, -, rfl⟩ :=
        isChange change inChanges
      exact notPending (List.mem_map_of_mem isPending)

/-- Storing another encoding of a located document. -/
theorem ensures_replaceStored
    {located : LocatedDocument}
    {encoded : Bytes}
    (sound : collection.Sound)
    (isLocated : collection.IsLocated located)
    (stored : StoredAs located.key encoded) :
    (collection.replaceStored located encoded).Ensures Sound := by
  refine ensures_attempt sound fun after decodes => ?_
  have decodes := decodes_of_lift decodes
  refine @ensures_replacement collection _ _ _ [(located.key, encoded)] _ _
    sound ?_ ?_ ?_ (fun _ => rfl)
  · simp only [List.mem_singleton]
    rintro _ rfl
    exact ⟨located, encoded, after, isLocated, rfl, decodes, rfl⟩
  · simpa using stored
  · intro _ entry isEntry document isDocument
    obtain rfl := List.mem_singleton.mp isEntry
    obtain rfl := Except.ok.inj (decodes.symm.trans isDocument)
    exact ⟨_, List.mem_singleton_self _, rfl, rfl⟩

/-- Encoding a document that carries the id of a key. -/
theorem storedAs_of_encoded
    {document : Document}
    {encoded : Bytes}
    {id : CustomId}
    (encodes : encodeStoredDocument document = .ok encoded)
    (hasId : Document.get? document idField = some (.customId id)) :
    StoredAs id.toHexString encoded := by
  unfold encodeStoredDocument at encodes
  split at encodes
  · rename_i result isResult
    rw [Except.ok.inj encodes] at isResult
    exact ⟨document, id, isResult, hasId, rfl⟩
  · cases encodes

/-- A located document with its id. -/
theorem IsLocated.id
    {located : LocatedDocument}
    (isLocated : collection.IsLocated located)
    (sound : collection.Sound) :
    ∃ id, Document.get? located.document idField = some (.customId id) ∧
      id.toHexString = located.key :=
  ((sound.stored _ _ isLocated.stored).decoded isLocated.decodes).2

/-- An updated document is stored under the key it had. -/
theorem storedAs_of_prepareUpdate
    {located : LocatedDocument}
    {update : Document}
    {apply : CompiledUpdate}
    {prepared : JsString × Bytes}
    (sound : collection.Sound)
    (isLocated : collection.IsLocated located)
    (compiles : compileUpdate update = .ok apply)
    (prepares : prepareUpdate located apply = .ok (some prepared)) :
    prepared.1 = located.key ∧ StoredAs located.key prepared.2 := by
  obtain ⟨changed, applies, prepares⟩ := Result.bind_eq_ok.mp prepares
  obtain ⟨encoded, encodes, prepares⟩ := Result.bind_eq_ok.mp prepares
  obtain ⟨id, hasId, isKey⟩ := isLocated.id sound
  have isPrepared := Except.ok.inj prepares
  split_ifs at isPrepared
  obtain rfl := Option.some.inj isPrepared
  refine ⟨rfl, ?_⟩
  rw [← isKey]
  refine storedAs_of_encoded encodes ?_
  rw [compileUpdate_keeps_id compiles applies, hasId]

end Replacing

section Inserting

variable
  {collection tracked : Collection}

/-- What a prepared insert is. -/
structure IsPrepared
    (collection : Collection)
    (prepared : PreparedInsert) : Prop where
  fresh : prepared.key ∉ collection.documents.keys
  stored : StoredAs prepared.key prepared.encoded

/-- What `prepareInsert` returns. -/
theorem prepareInsert_ok
    {pending : List JsString}
    {generated : CustomId}
    {document : Document}
    {prepared : PreparedInsert}
    (prepares :
      collection.prepareInsert pending generated document = .ok prepared) :
    collection.IsPrepared prepared ∧ prepared.key ∉ pending := by
  obtain ⟨id, -, prepares⟩ := Result.bind_eq_ok.mp prepares
  simp only at prepares
  split_ifs at prepares with present
  · cases prepares
  · obtain ⟨encoded, encodes, same⟩ := Result.bind_eq_ok.mp prepares
    obtain rfl := Except.ok.inj same
    simp only [Bool.or_eq_true, not_or, List.contains_iff_mem] at present
    refine ⟨⟨fun member => present.1 (JsMap.has_iff.mpr member), ?_⟩,
      present.2⟩
    refine storedAs_of_encoded encodes ?_
    rw [Document.get?_set, if_pos rfl]

/-- An insert that is prepared and tracked. -/
structure IsTracked
    (collection : Collection)
    (indexes : IndexSet)
    (prepared : PreparedInsert) : Prop extends
    collection.IsPrepared prepared where
  known :
    ∀ document, decodeDocument prepared.encoded = .ok document →
      ∀ name, IndexSet.Knows indexes name prepared.key document

/-- Tracking an insert changes nothing but the indexes. -/
theorem trackInsert_shape
    {prepared : PreparedInsert}
    {result : Except Thrown (List UndoStep)}
    (tracks : collection.trackInsert prepared = (tracked, result)) :
    tracked = { collection with indexes := tracked.indexes } := by
  unfold trackInsert at tracks
  split_ifs at tracks
  · obtain ⟨rfl, -⟩ := Prod.mk.inj tracks
    rfl
  · split at tracks
    · obtain ⟨rfl, -⟩ := Prod.mk.inj tracks
      rfl
    · exact (trackChanges_eq tracks).1

/-- The changes of an insert. -/
theorem keyed_insert
    {prepared : PreparedInsert}
    {document : Document}
    (stored : StoredAs prepared.key prepared.encoded)
    (decodes : decodeDocument prepared.encoded = .ok document) :
    IndexSet.KeyedChanges [⟨prepared.key, none, some document⟩] := by
  intro change member
  obtain rfl := List.mem_singleton.mp member
  refine ⟨by simp, ?_⟩
  rintro _ ⟨⟩
  exact fun _ _ => hasKey_of_resolveField (stored.decoded decodes).1

/-- An insert that the indexes accept. -/
theorem trackInsert_ok
    {prepared : PreparedInsert}
    {undo : List UndoStep}
    (isPrepared : collection.IsPrepared prepared)
    (tracks : collection.trackInsert prepared = (tracked, .ok undo)) :
    IndexSet.Keeps collection.indexes tracked.indexes (fun _ => False) ∧
      collection.IsTracked tracked.indexes prepared ∧
      IndexSet.Removals undo (· = prepared.key) := by
  unfold trackInsert at tracks
  split_ifs at tracks with empty
  · obtain ⟨rfl, isUndo⟩ := Prod.mk.inj tracks
    obtain rfl := Except.ok.inj isUndo
    refine ⟨IndexSet.Keeps.refl _ _, ⟨isPrepared, ?_⟩, by
      simp [IndexSet.Removals]⟩
    intro document _ name index found
    have noKeys : collection.indexes.keys = [] := by
      simpa [IndexSet.isEmpty, JsMap.size, JsMap.keys] using empty
    have absent : name ∉ collection.indexes.keys := by simp [noKeys]
    rw [JsMap.get?_eq_none.mpr absent] at found
    cases found
  · split at tracks
    · cases (Prod.mk.inj tracks).2
    · rename_i document decodes
      have keyed := keyed_insert isPrepared.stored decodes
      obtain ⟨keeps, added, undoes⟩ :=
        IndexSet.applyChanges_ok keyed (trackChanges_eq tracks).2
      obtain ⟨adds, removes, rfl, fromChanges, -, removals⟩ := undoes.parts
      refine ⟨keeps.weaken ?_, ⟨isPrepared, ?_⟩, ?_⟩
      · rintro key ⟨change, member, -, replaced⟩
        obtain rfl := List.mem_singleton.mp member
        exact replaced rfl
      · intro other isOther name
        obtain rfl := Except.ok.inj (decodes.symm.trans isOther)
        exact added _ (List.mem_singleton_self _) document rfl name
      · intro step member
        rcases List.mem_append.mp member with isAdd | isRemove
        · obtain ⟨change, inChanges, before, name, isBefore, -⟩ :=
            fromChanges step isAdd
          obtain rfl := List.mem_singleton.mp inChanges
          cases isBefore
        · obtain ⟨name, key, document, isStep, change, inChanges, isKey⟩ :=
            removals step isRemove
          obtain rfl := List.mem_singleton.mp inChanges
          exact ⟨name, key, document, isStep, isKey.symm⟩

/-- An insert that is refused. -/
theorem trackInsert_error
    {prepared : PreparedInsert}
    {error : Thrown}
    (isPrepared : collection.IsPrepared prepared)
    (tracks : collection.trackInsert prepared = (tracked, .error error)) :
    IndexSet.Keeps collection.indexes tracked.indexes
      (· = prepared.key) := by
  unfold trackInsert at tracks
  split_ifs at tracks with empty
  · cases (Prod.mk.inj tracks).2
  · split at tracks
    · obtain ⟨rfl, -⟩ := Prod.mk.inj tracks
      exact IndexSet.Keeps.refl _ _
    · rename_i document decodes
      have keyed := keyed_insert isPrepared.stored decodes
      obtain ⟨keeps, -⟩ :=
        IndexSet.applyChanges_error keyed (trackChanges_eq tracks).2
      refine keeps.weaken ?_
      rintro key ⟨change, member, rfl⟩
      obtain rfl := List.mem_singleton.mp member
      rfl

section Attempts

variable
  {pending : List JsString}
  {generated : CustomId}
  {document : Document}

/-- How an attempt to insert goes. -/
theorem tryInsert_cases
    {result : Except Thrown (PreparedInsert × List UndoStep)}
    (tries :
      collection.tryInsert pending generated document = (tracked, result)) :
    (tracked = collection ∧ ∃ error, result = .error error) ∨
      ∃ prepared tracking,
        collection.prepareInsert pending generated document =
            .ok prepared ∧
          collection.trackInsert prepared = (tracked, tracking) ∧
          result = tracking.map fun undo => (prepared, undo) := by
  unfold tryInsert at tries
  split at tries
  · obtain ⟨rfl, rfl⟩ := Prod.mk.inj tries
    exact .inl ⟨rfl, _, rfl⟩
  · rename_i prepared prepares
    cases tracks : collection.trackInsert prepared with
    | mk next tracking =>
        rw [tracks] at tries
        obtain ⟨rfl, rfl⟩ := Prod.mk.inj tries
        exact .inr ⟨prepared, tracking, prepares, tracks, rfl⟩

/-- An attempt to insert changes nothing but the indexes. -/
theorem tryInsert_shape
    {result : Except Thrown (PreparedInsert × List UndoStep)}
    (tries :
      collection.tryInsert pending generated document = (tracked, result)) :
    tracked = { collection with indexes := tracked.indexes } := by
  rcases tryInsert_cases tries with ⟨rfl, -⟩ | ⟨_, _, -, tracks, -⟩
  · rfl
  · exact trackInsert_shape tracks

/-- A successful attempt to insert. -/
theorem tryInsert_ok
    {prepared : PreparedInsert}
    {undo : List UndoStep}
    (tries :
      collection.tryInsert pending generated document =
        (tracked, .ok (prepared, undo))) :
    IndexSet.Keeps collection.indexes tracked.indexes (fun _ => False) ∧
      collection.IsTracked tracked.indexes prepared ∧
      IndexSet.Removals undo (· = prepared.key) := by
  rcases tryInsert_cases tries with
    ⟨-, _, isError⟩ | ⟨found, tracking, prepares, tracks, isResult⟩
  · cases isError
  · cases tracking with
    | error error =>
        cases isResult
    | ok steps =>
        obtain ⟨rfl, rfl⟩ := Prod.mk.inj (Except.ok.inj isResult)
        exact trackInsert_ok (prepareInsert_ok prepares).1 tracks

/-- An attempt to insert that fails. -/
theorem tryInsert_error
    {error : Thrown}
    (tries :
      collection.tryInsert pending generated document =
        (tracked, .error error)) :
    IndexSet.Keeps collection.indexes tracked.indexes fun key =>
      key ∉ collection.documents.keys ∧ key ∉ pending := by
  rcases tryInsert_cases tries with
    ⟨rfl, -⟩ | ⟨prepared, tracking, prepares, tracks, isResult⟩
  · exact IndexSet.Keeps.refl _ _
  · obtain ⟨isPrepared, notPending⟩ := prepareInsert_ok prepares
    cases tracking with
    | error _ =>
        refine (trackInsert_error isPrepared tracks).weaken ?_
        rintro key rfl
        exact ⟨isPrepared.fresh, notPending⟩
    | ok _ =>
        cases isResult

end Attempts

/-- A stored document has a stored key. -/
theorem Stores.mem_keys
    {key : JsString}
    {document : Document}
    (stores : collection.Stores key document) :
    key ∈ collection.documents.keys := by
  obtain ⟨encoded, member, -⟩ := stores
  exact List.mem_map.mpr ⟨_, member, rfl⟩

/-- Indexes that keep what they know of stored keys keep soundness. -/
theorem Sound.withUnstored
    (sound : collection.Sound)
    {indexes : IndexSet}
    {exempt : JsString → Prop}
    (keeps : IndexSet.Keeps collection.indexes indexes exempt)
    (unstored : ∀ key, exempt key → key ∉ collection.documents.keys) :
    ({ collection with indexes := indexes } : Collection).Sound :=
  sound.withIndexes keeps fun _ _ stores isExempt =>
    absurd stores.mem_keys (unstored _ isExempt)

/-- Putting tracked inserts leaves a sound collection. -/
theorem sound_putAll
    {accepted : List PreparedInsert}
    {indexes : IndexSet}
    {exempt : JsString → Prop}
    (sound : collection.Sound)
    (keeps : IndexSet.Keeps collection.indexes indexes exempt)
    (unstored : ∀ key, exempt key → key ∉ collection.documents.keys)
    (isTracked :
      ∀ prepared ∈ accepted, collection.IsTracked indexes prepared) :
    (({ collection with indexes := indexes } : Collection).putAll
      (accepted.map fun entry => (entry.key, entry.encoded))).Sound := by
  have base := sound.withUnstored keeps unstored
  have origin :
      ∀ key encoded,
        (key, encoded) ∈
          (({ collection with indexes := indexes } : Collection).putAll
            (accepted.map fun entry =>
              (entry.key, entry.encoded))).documents.entries →
        (∃ prepared ∈ accepted,
          key = prepared.key ∧ encoded = prepared.encoded) ∨
            (key, encoded) ∈ collection.documents.entries := by
    intro key encoded member
    rw [putAll_documents] at member
    rcases JsMap.mem_entries_foldl_set member with isNew | ⟨wasStored, -⟩
    · obtain ⟨prepared, isAccepted, same⟩ := List.mem_map.mp isNew
      obtain ⟨rfl, rfl⟩ := Prod.mk.inj same
      exact .inl ⟨prepared, isAccepted, rfl, rfl⟩
    · exact .inr wasStored
  refine ⟨sequenced_putAll base.toSequenced _, ?_, ?_, ?_⟩
  · intro key encoded member
    rcases origin key encoded member with
      ⟨prepared, isAccepted, rfl, rfl⟩ | wasStored
    · exact (isTracked prepared isAccepted).stored
    · exact sound.stored key encoded wasStored
  · rw [putAll_indexes]
    exact base.wellFormed
  · rintro key document ⟨encoded, member, decodes⟩ name
    rw [putAll_indexes]
    rcases origin key encoded member with
      ⟨prepared, isAccepted, rfl, rfl⟩ | wasStored
    · exact (isTracked prepared isAccepted).known document decodes name
    · exact base.known key document ⟨encoded, wasStored, decodes⟩ name

/-- `insertOne` keeps a collection sound. -/
theorem ensures_insertOne
    (sound : collection.Sound)
    (generated : CustomId)
    (document : Document) :
    (collection.insertOne generated document).Ensures Sound := by
  unfold insertOne
  split
  · rename_i tracked error tries
    intro _
    have shape := tryInsert_shape tries
    simp only [Write.run]
    rw [shape]
    exact sound.withUnstored (tryInsert_error tries) fun _ => And.left
  · rename_i tracked prepared undo tries
    have shape := tryInsert_shape tries
    obtain ⟨keeps, isTracked, removals⟩ := tryInsert_ok tries
    refine ensures_commit ?_ ?_
    · rw [shape]
      exact @sound_putAll collection [prepared] _ _ sound keeps
        (fun _ => False.elim) (by simpa using isTracked)
    · unfold rollback
      rw [shape]
      have back : IndexSet.Removals undo.reverse (· = prepared.key) :=
        fun step member => removals step (List.mem_reverse.mp member)
      refine sound.withUnstored
        ((keeps.weaken fun _ => False.elim).trans
          (IndexSet.keeps_removals back _)) ?_
      rintro key rfl
      exact isTracked.fresh

/-- What the loop of `insertMany` keeps true. -/
structure BatchInvariant
    (collection : Collection)
    (indexes : IndexSet)
    (accepted : List PreparedInsert)
    (rollbacks : List (List UndoStep)) : Prop where
  isTracked : ∀ prepared ∈ accepted, collection.IsTracked indexes prepared
  removals :
    IndexSet.Removals rollbacks.flatten
      (· ∈ accepted.map PreparedInsert.key)

/-- The loop of `insertMany`. -/
theorem insertLoop_spec
    {generated : Nat → CustomId}
    {documents : List Document}
    {index : Nat}
    {indexes : IndexSet}
    {accepted : List PreparedInsert}
    {rollbacks : List (List UndoStep)}
    {final : Collection}
    {result : Except Thrown InsertBatch}
    (invariant : collection.BatchInvariant indexes accepted rollbacks)
    (loops :
      insertLoop generated documents index
          { collection with indexes := indexes } accepted rollbacks =
        (final, result)) :
    final = { collection with indexes := final.indexes } ∧
      ∃ exempt : JsString → Prop,
        IndexSet.Keeps indexes final.indexes exempt ∧
          (∀ key, exempt key → key ∉ collection.documents.keys) ∧
          ∀ batch, result = .ok batch →
            collection.BatchInvariant final.indexes batch.accepted
              batch.rollbacks := by
  induction documents generalizing index indexes accepted rollbacks with
  | nil =>
      obtain ⟨rfl, rfl⟩ := Prod.mk.inj loops
      refine ⟨rfl, fun _ => False, IndexSet.Keeps.refl _ _,
        fun _ => False.elim, ?_⟩
      rintro batch ⟨⟩
      exact invariant
  | cons document rest inductionHypothesis =>
      unfold insertLoop at loops
      split at loops
      · rename_i tracked prepared undo tries
        have shape := tryInsert_shape tries
        obtain ⟨keeps, isTracked, removals⟩ := tryInsert_ok tries
        simp only at shape keeps
        rw [shape] at loops
        have next :
            collection.BatchInvariant tracked.indexes
              (accepted ++ [prepared]) (rollbacks ++ [undo]) := by
          constructor
          · intro other member
            rcases List.mem_append.mp member with isOld | isNew
            · have old := invariant.isTracked other isOld
              exact ⟨old.toIsPrepared, fun document decodes name =>
                keeps.knows name other.key document id
                  (old.known document decodes name)⟩
            · obtain rfl := List.mem_singleton.mp isNew
              exact ⟨⟨isTracked.fresh, isTracked.stored⟩, isTracked.known⟩
          · intro step member
            simp only [List.flatten_append, List.flatten_cons,
              List.flatten_nil, List.append_nil, List.mem_append] at member
            simp only [List.map_append, List.map_cons, List.map_nil]
            rcases member with isOld | isNew
            · obtain ⟨name, key, stored, isStep, isKey⟩ :=
                invariant.removals step isOld
              exact ⟨name, key, stored, isStep,
                List.mem_append_left _ isKey⟩
            · obtain ⟨name, key, stored, isStep, isKey⟩ :=
                removals step isNew
              exact ⟨name, key, stored, isStep,
                List.mem_append_right _ (by simp [isKey])⟩
        obtain ⟨isFinal, exempt, keepsRest, unstored, after⟩ :=
          inductionHypothesis next loops
        exact ⟨isFinal, exempt,
          (keeps.weaken fun _ => False.elim).trans keepsRest, unstored, after⟩
      · rename_i tracked error tries
        obtain ⟨rfl, rfl⟩ := Prod.mk.inj loops
        have shape := tryInsert_shape tries
        have keeps := tryInsert_error tries
        refine ⟨shape, _, keeps, fun _ => And.left, ?_⟩
        rintro batch ⟨⟩
        refine ⟨?_, invariant.removals⟩
        intro other member
        have old := invariant.isTracked other member
        exact ⟨old.toIsPrepared, fun document decodes name =>
          keeps.knows name other.key document
            (fun exempt => exempt.2 (List.mem_map_of_mem member))
            (old.known document decodes name)⟩
      · rename_i tracked error _ tries
        obtain ⟨rfl, rfl⟩ := Prod.mk.inj loops
        have shape := tryInsert_shape tries
        refine ⟨shape, _, tryInsert_error tries, fun _ => And.left, ?_⟩
        rintro batch ⟨⟩

/-- `insertMany` keeps a collection sound. -/
theorem ensures_insertMany
    (sound : collection.Sound)
    (generated : Nat → CustomId)
    (documents : List Document) :
    (collection.insertMany generated documents).Ensures Sound := by
  have start : collection.BatchInvariant collection.indexes [] [] :=
    ⟨by simp, by simp [IndexSet.Removals]⟩
  unfold insertMany
  split_ifs
  · exact fun _ => sound
  · split
    · rename_i final error loops
      obtain ⟨shape, exempt, keeps, unstored, -⟩ := insertLoop_spec start loops
      intro _
      simp only [Write.run]
      rw [shape]
      exact sound.withUnstored keeps unstored
    · rename_i final batch loops
      obtain ⟨shape, exempt, keeps, unstored, after⟩ :=
        insertLoop_spec start loops
      have invariant := after batch rfl
      refine ensures_commit ?_ ?_
      · rw [shape]
        exact sound_putAll sound keeps unstored invariant.isTracked
      · unfold rollback
        rw [shape]
        have back :
            IndexSet.Removals batch.rollbacks.flatten.reverse
              (· ∉ collection.documents.keys) := by
          intro step member
          obtain ⟨name, key, document, isStep, isKey⟩ :=
            invariant.removals step (List.mem_reverse.mp member)
          obtain ⟨prepared, isAccepted, rfl⟩ := List.mem_map.mp isKey
          exact ⟨name, prepared.key, document, isStep,
            (invariant.isTracked prepared isAccepted).fresh⟩
        exact sound.withUnstored
          ((keeps.weaken unstored).trans (IndexSet.keeps_removals back _))
          fun _ => id

end Inserting

section Updating

variable
  {collection : Collection}

/-- The upsert of a write keeps a collection sound. -/
theorem ensures_upsert
    (sound : collection.Sound)
    (generated : CustomId)
    (document : Document) :
    (collection.upsert generated document).Ensures Sound :=
  Write.ensures_map (ensures_insertOne sound generated document) _

/-- The upsert of an update keeps a collection sound. -/
theorem ensures_upsertFromUpdate
    (sound : collection.Sound)
    (filter : Document)
    (apply : CompiledUpdate)
    (upserts : Bool)
    (generated : CustomId) :
    (collection.upsertFromUpdate filter apply upserts generated).Ensures
      Sound := by
  unfold upsertFromUpdate
  split_ifs
  · exact ensures_attempt sound fun document _ =>
      ensures_upsert sound generated document
  · exact fun _ => sound

/-- A replacement is stored under the key of the document it replaces. -/
theorem replacementFor_id
    {existing replacement document : Document}
    {id : CustomId}
    (hasId : Document.get? existing idField = some (.customId id))
    (replaces : replacementFor existing replacement = .ok document) :
    document = Document.set replacement idField (.customId id) := by
  unfold replacementFor at replaces
  simp only [hasId] at replaces
  split at replaces
  · exact (Except.ok.inj replaces).symm
  · split_ifs at replaces
    exact (Except.ok.inj replaces).symm
  · cases replaces

/-- `replaceOne` keeps a collection sound. -/
theorem ensures_replaceOne
    (sound : collection.Sound)
    (filter replacement : Document)
    (upserts : Bool)
    (generated : CustomId) :
    (collection.replaceOne filter replacement upserts generated).Ensures
      Sound := by
  refine ensures_attempt sound fun test _ => ?_
  refine ensures_attempt sound fun _ _ => ?_
  refine ensures_attempt sound fun located isLocated => ?_
  cases located with
  | none =>
      simp only
      split_ifs
      · exact ensures_attempt sound fun document _ =>
          ensures_upsert sound generated document
      · exact fun _ => sound
  | some located =>
      have isLocated := isLocated_of_locate isLocated
      obtain ⟨id, hasId, isKey⟩ := isLocated.id sound
      refine ensures_attempt sound fun encoded encodes => ?_
      obtain ⟨document, replaces, encodes⟩ := Result.bind_eq_ok.mp encodes
      split_ifs
      · exact fun _ => sound
      · refine ensures_replaceStored sound isLocated ?_
        rw [← isKey]
        refine storedAs_of_encoded encodes ?_
        rw [replacementFor_id hasId replaces, Document.get?_set, if_pos rfl]

/-- `updateOne` keeps a collection sound. -/
theorem ensures_updateOne
    (sound : collection.Sound)
    (filter update : Document)
    (upserts : Bool)
    (generated : CustomId) :
    (collection.updateOne filter update upserts generated).Ensures
      Sound := by
  refine ensures_attempt sound fun test _ => ?_
  refine ensures_attempt sound fun apply compiles => ?_
  refine ensures_attempt sound fun located isLocated => ?_
  cases located with
  | none =>
      exact ensures_upsertFromUpdate sound filter apply upserts generated
  | some located =>
      have isLocated := isLocated_of_locate isLocated
      refine ensures_attempt sound fun pending prepares => ?_
      cases pending with
      | none =>
          exact fun _ => sound
      | some prepared =>
          exact ensures_replaceStored sound isLocated
            (storedAs_of_prepareUpdate sound isLocated compiles prepares).2

/-- What `updateMany` collects is about stored documents. -/
structure Updates
    (collection : Collection)
    (indexed : Bool)
    (updates : PendingUpdates) : Prop where
  isChange :
    ∀ change ∈ updates.changes, ∃ located encoded after,
      collection.IsLocated located ∧
        (located.key, encoded) ∈ updates.pending ∧
        decodeDocument encoded = .ok after ∧
        change = ⟨located.key, some located.document, some after⟩
  stored : ∀ entry ∈ updates.pending, StoredAs entry.1 entry.2
  tracksAll :
    indexed = true →
      ∀ entry ∈ updates.pending, ∀ document,
        decodeDocument entry.2 = .ok document →
        ∃ change ∈ updates.changes,
          change.key = entry.1 ∧ change.after = some document

/-- Two parts of the loop together. -/
theorem Updates.append
    {indexed : Bool}
    {left right : PendingUpdates}
    (leftUpdates : collection.Updates indexed left)
    (rightUpdates : collection.Updates indexed right) :
    collection.Updates indexed (left.append right) := by
  refine ⟨?_, ?_, ?_⟩
  · intro change member
    rcases List.mem_append.mp member with isLeft | isRight
    · obtain ⟨located, encoded, after, isLocated, inPending, rest⟩ :=
        leftUpdates.isChange change isLeft
      exact ⟨located, encoded, after, isLocated,
        List.mem_append_left _ inPending, rest⟩
    · obtain ⟨located, encoded, after, isLocated, inPending, rest⟩ :=
        rightUpdates.isChange change isRight
      exact ⟨located, encoded, after, isLocated,
        List.mem_append_right _ inPending, rest⟩
  · intro entry member
    rcases List.mem_append.mp member with isLeft | isRight
    · exact leftUpdates.stored entry isLeft
    · exact rightUpdates.stored entry isRight
  · intro isIndexed entry member document decodes
    rcases List.mem_append.mp member with isLeft | isRight
    · obtain ⟨change, inChanges, isChange⟩ :=
        leftUpdates.tracksAll isIndexed entry isLeft document decodes
      exact ⟨change, List.mem_append_left _ inChanges, isChange⟩
    · obtain ⟨change, inChanges, isChange⟩ :=
        rightUpdates.tracksAll isIndexed entry isRight document decodes
      exact ⟨change, List.mem_append_right _ inChanges, isChange⟩

section Loop

variable
  {indexed : Bool}
  {test : CompiledFilter}
  {update : Document}
  {apply : CompiledUpdate}
  {updates : PendingUpdates}

/-- One candidate in the loop of `updateMany`. -/
theorem updates_collectUpdate
    {candidate : JsString × Bytes}
    (sound : collection.Sound)
    (compiles : compileUpdate update = .ok apply)
    (stored : candidate ∈ collection.documents.entries)
    (collects : collectUpdate indexed test apply candidate = .ok updates) :
    collection.Updates indexed updates := by
  have nothing : ∀ matched, collection.Updates indexed ⟨matched, [], []⟩ :=
    fun _ => ⟨by simp, by simp, by simp⟩
  obtain ⟨key, encoded⟩ := candidate
  unfold collectUpdate at collects
  obtain ⟨document, decodes, collects⟩ := Result.bind_eq_ok.mp collects
  cases passes : test document with
  | false =>
      simp only [passes, Bool.not_false, if_true] at collects
      obtain rfl := Except.ok.inj collects
      exact nothing 0
  | true =>
      simp only [passes, Bool.not_true, Bool.false_eq_true,
        if_false] at collects
      obtain ⟨pending, prepares, collects⟩ := Result.bind_eq_ok.mp collects
      cases pending with
      | none =>
          obtain rfl := Except.ok.inj collects
          exact nothing 1
      | some prepared =>
          have isLocated : collection.IsLocated ⟨key, encoded, document⟩ :=
            ⟨stored, decodes_of_lift decodes⟩
          obtain ⟨isKey, isStored⟩ :=
            storedAs_of_prepareUpdate sound isLocated compiles prepares
          obtain ⟨preparedKey, prepared⟩ := prepared
          obtain rfl : preparedKey = key := isKey
          cases indexed with
          | false =>
              obtain rfl := Except.ok.inj collects
              exact ⟨by simp, by simpa using isStored, by simp⟩
          | true =>
              obtain ⟨after, afterDecodes, same⟩ :=
                Result.bind_eq_ok.mp collects
              obtain rfl := Except.ok.inj same
              have afterDecodes := decodes_of_lift afterDecodes
              refine ⟨?_, by simpa using isStored, ?_⟩
              · intro change member
                obtain rfl := List.mem_singleton.mp member
                exact ⟨_, prepared, after, isLocated,
                  List.mem_singleton_self _, afterDecodes, rfl⟩
              · intro _ entry member other decodesOther
                obtain rfl := List.mem_singleton.mp member
                obtain rfl :=
                  Except.ok.inj (afterDecodes.symm.trans decodesOther)
                exact ⟨_, List.mem_singleton_self _, rfl, rfl⟩

/-- The loop of `updateMany`. -/
theorem updates_collectUpdates
    {entries : List (JsString × Bytes)}
    (sound : collection.Sound)
    (compiles : compileUpdate update = .ok apply)
    (stored : ∀ entry ∈ entries, entry ∈ collection.documents.entries)
    (collects : collectUpdates indexed test apply entries = .ok updates) :
    collection.Updates indexed updates := by
  induction entries generalizing updates with
  | nil =>
      obtain rfl := Except.ok.inj collects
      exact ⟨by simp, by simp, by simp⟩
  | cons entry rest inductionHypothesis =>
      rw [List.forall_mem_cons] at stored
      obtain ⟨first, isFirst, collects⟩ := Result.bind_eq_ok.mp collects
      obtain ⟨later, isLater, same⟩ := Result.bind_eq_ok.mp collects
      obtain rfl := Except.ok.inj same
      exact (updates_collectUpdate sound compiles stored.1 isFirst).append
        (inductionHypothesis stored.2 isLater)

end Loop

/-- `updateMany` keeps a collection sound. -/
theorem ensures_updateMany
    (sound : collection.Sound)
    (filter update : Document)
    (upserts : Bool)
    (generated : CustomId) :
    (collection.updateMany filter update upserts generated).Ensures
      Sound := by
  refine ensures_attempt sound fun test _ => ?_
  refine ensures_attempt sound fun apply compiles => ?_
  refine ensures_attempt sound fun updates collects => ?_
  split_ifs
  · exact ensures_upsertFromUpdate sound filter apply upserts generated
  · have isUpdates :=
      updates_collectUpdates sound compiles (fun _ => mem_candidates) collects
    exact ensures_replacement sound isUpdates.isChange isUpdates.stored
      (fun notEmpty => isUpdates.tracksAll (by simp [notEmpty]))
      (fun _ => rfl)

end Updating

section Indexing

variable
  {collection built : Collection}

/-- Numbering keys one after the other, behind those already numbered. -/
theorem numberKeys_spec
    {rest done : List JsString}
    {sequence : JsMap JsString Nat}
    (distinct : (done ++ rest).Nodup)
    (isSequence : collection.sequence = some sequence)
    (numbered : Numbered done sequence collection.nextSequence) :
    let result := rest.foldl numberKey collection
    result.documents = collection.documents ∧
      result.indexes = collection.indexes ∧
      ∃ sequence, result.sequence = some sequence ∧
        Numbered (done ++ rest) sequence result.nextSequence := by
  induction rest generalizing done collection sequence with
  | nil =>
      exact ⟨rfl, rfl, sequence, isSequence, by simpa using numbered⟩
  | cons key rest inductionHypothesis =>
      have fresh : key ∉ done := by
        intro member
        rw [List.nodup_append] at distinct
        exact distinct.2.2 key member key List.mem_cons_self rfl
      have later :=
        @inductionHypothesis (collection.numberKey key) (done ++ [key])
          (sequence.set key collection.nextSequence)
          (by simpa using distinct) (by simp [numberKey, isSequence])
          (numbered.snoc fresh)
      rw [List.append_assoc] at later
      exact later

/-- Numbering the stored documents. -/
theorem numberDocuments_spec
    (collection : Collection) :
    collection.numberDocuments.documents = collection.documents ∧
      collection.numberDocuments.indexes = collection.indexes ∧
      ∃ sequence, collection.numberDocuments.sequence = some sequence ∧
        Numbered collection.documents.keys sequence
          collection.numberDocuments.nextSequence :=
  @numberKeys_spec { collection with sequence := some .empty }
    collection.documents.keys [] .empty collection.documents.nodup_keys rfl
    ⟨by simp, .nil⟩

/-- The decoded entries are the stored documents. -/
theorem mem_decodedEntries
    {key : JsString}
    {document : Document}
    (member : .ok (key, document) ∈ collection.decodedEntries) :
    collection.Stores key document := by
  obtain ⟨⟨stored, encoded⟩, isEntry, decodes⟩ := List.mem_map.mp member
  obtain ⟨decoded, isDecoded, same⟩ := Result.bind_eq_ok.mp decodes
  obtain ⟨rfl, rfl⟩ := Prod.mk.inj (Except.ok.inj same)
  exact ⟨encoded, isEntry, decodes_of_lift isDecoded⟩

/-- The stored documents are among the decoded entries. -/
theorem Stores.mem_decodedEntries
    {key : JsString}
    {document : Document}
    (stores : collection.Stores key document) :
    .ok (key, document) ∈ collection.decodedEntries := by
  obtain ⟨encoded, member, decodes⟩ := stores
  refine List.mem_map.mpr ⟨(key, encoded), member, ?_⟩
  simp only [decodes, liftProtocol, Result.ok_bind]
  rfl

/-- How building an index ends. -/
theorem buildIndex_cases
    {spec : IndexSpec}
    {created : Bool}
    (sound : collection.Sound)
    (builds : collection.buildIndex spec = .ok (built, created)) :
    (created = false ∧ built = collection) ∨
      (created = true ∧ collection.indexes.get? spec.name = none ∧
        ∃ index, index.WellFormed ∧ index.spec = spec ∧
          built.documents = collection.documents ∧
          built.indexes = collection.indexes.set spec.name index ∧
          built.Sequenced ∧
          ∀ key document, collection.Stores key document →
            index.Covers key document) := by
  obtain ⟨⟨indexes, result⟩, creates, builds⟩ := Result.bind_eq_ok.mp builds
  have keyed :
      ∀ key document, .ok (key, document) ∈ collection.decodedEntries →
        document.Keyed := by
    intro key document member
    obtain ⟨encoded, isEntry, decodes⟩ := mem_decodedEntries member
    exact sound.keyed isEntry decodes
  rcases IndexSet.create_spec keyed creates with
    ⟨rfl, rfl⟩ | ⟨rfl, absent, index, rfl, wellFormed, isSpec, covers⟩
  · obtain ⟨rfl, rfl⟩ := Prod.mk.inj (Except.ok.inj builds)
    exact .inl ⟨rfl, rfl⟩
  · have covered :
        ∀ key document, collection.Stores key document →
          index.Covers key document := by
      intro key document stores
      obtain ⟨other, stored, same, isCovered⟩ :=
        covers _ stores.mem_decodedEntries
      obtain ⟨rfl, rfl⟩ := Prod.mk.inj (Except.ok.inj same)
      exact isCovered
    simp only at builds
    split_ifs at builds with unnumbered
    · obtain ⟨rfl, rfl⟩ := Prod.mk.inj (Except.ok.inj builds)
      obtain ⟨documents, isIndexes, sequence, isSequence, numbered⟩ :=
        numberDocuments_spec
          { collection with indexes := collection.indexes.set spec.name index }
      refine .inr ⟨rfl, absent, index, wellFormed, isSpec, documents,
        isIndexes, ⟨by simp [isSequence], ?_⟩, covered⟩
      intro other isOther
      obtain rfl := Option.some.inj (isSequence.symm.trans isOther)
      rw [documents]
      exact numbered
    · obtain ⟨rfl, rfl⟩ := Prod.mk.inj (Except.ok.inj builds)
      refine .inr ⟨rfl, absent, index, wellFormed, isSpec, rfl, rfl,
        ⟨?_, sound.numbered⟩, covered⟩
      intro _ isNone
      exact unnumbered (by simpa using isNone)

/-- A built index leaves a sound collection. -/
theorem sound_buildIndex
    {spec : IndexSpec}
    {created : Bool}
    (sound : collection.Sound)
    (builds : collection.buildIndex spec = .ok (built, created)) :
    built.Sound := by
  rcases buildIndex_cases sound builds with
    ⟨-, rfl⟩ | ⟨-, -, index, wellFormed, -, documents, indexes, sequenced,
      covers⟩
  · exact sound
  · refine ⟨sequenced, ?_, ?_, ?_⟩
    · rw [documents]
      exact sound.stored
    · intro name other found
      rw [indexes, JsMap.get?_set] at found
      split_ifs at found
      · obtain rfl := Option.some.inj found
        exact wellFormed
      · exact sound.wellFormed name other found
    · rintro key document ⟨encoded, member, decodes⟩ name other found
      rw [documents] at member
      have stores : collection.Stores key document :=
        ⟨encoded, member, decodes⟩
      rw [indexes, JsMap.get?_set] at found
      split_ifs at found
      · obtain rfl := Option.some.inj found
        exact covers key document stores
      · exact sound.known key document stores name other found

/-- A dropped index leaves a sound collection. -/
theorem sound_removeIndex
    (sound : collection.Sound)
    (name : JsString) :
    (collection.removeIndex name).Sound := by
  have found :
      ∀ other index,
        (IndexSet.drop collection.indexes name).get? other = some index →
        collection.indexes.get? other = some index := by
    intro other index isIndex
    unfold IndexSet.drop at isIndex
    rw [JsMap.get?_delete] at isIndex
    split_ifs at isIndex
    exact isIndex
  refine ⟨⟨?_, ?_⟩, sound.stored, ?_, ?_⟩
  · intro notEmpty
    simp only [removeIndex] at notEmpty ⊢
    rw [if_neg (by simp [notEmpty])]
    apply sound.exists_sequence
    by_contra empty
    have noKeys : collection.indexes.entries = [] := by
      simpa [IndexSet.isEmpty, JsMap.size] using empty
    simp [IndexSet.isEmpty, IndexSet.drop, JsMap.size, noKeys] at notEmpty
  · intro sequence isSequence
    simp only [removeIndex] at isSequence ⊢
    split_ifs at isSequence
    exact sound.numbered sequence isSequence
  · intro other index isIndex
    exact sound.wellFormed other index (found other index isIndex)
  · intro key document stores other index isIndex
    exact sound.known key document stores other index
      (found other index isIndex)

/-- `createIndex` keeps a collection sound. -/
theorem ensures_createIndex
    (sound : collection.Sound)
    (input : CreateIndexInput) :
    (collection.createIndex input).Ensures Sound := by
  refine ensures_attempt sound fun spec _ => ?_
  refine ensures_attempt sound fun result builds => ?_
  obtain ⟨built, created⟩ := result
  have soundBuilt := sound_buildIndex sound builds
  simp only
  split_ifs
  · intro answer
    cases answer with
    | error error =>
        exact sound_removeIndex soundBuilt spec.name
    | ok _ =>
        exact soundBuilt
  · exact fun _ => soundBuilt

/-- `dropIndex` keeps a collection sound. -/
theorem ensures_dropIndex
    (sound : collection.Sound)
    (name : JsString) :
    (collection.dropIndex name).Ensures Sound := by
  unfold dropIndex
  split_ifs
  · exact fun _ => sound
  · intro answer
    cases answer with
    | error error =>
        exact sound
    | ok _ =>
        exact sound_removeIndex sound name
  · exact fun _ => sound

end Indexing

end Collection

end SinterDb
