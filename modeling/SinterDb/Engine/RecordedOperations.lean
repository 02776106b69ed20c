import SinterDb.Engine.SnapshotImage

namespace SinterDb

open Unicode

/-!
# Recorded operations

The operations of a collection as the engine records them: what was written is
read back as it was, and does to all databases what it does to its collection.
-/

/-- An operation that is read back as it was written. -/
structure Operation.IsKept (operation : Operation) : Prop where
  names : ∀ name ∈ operation.names, IsKeptName name
  parts : operation.HasParts

section Encoding

/-- A kept name that could be written is a name. -/
theorem IsKeptName.isName
    {name : JsString}
    {bytes : Bytes}
    (isKept : IsKeptName name)
    (encodes : encodeName name = .ok bytes) :
    IsName name where
  wellFormed := isKept.1
  notEmpty := by
    rintro rfl
    cases encodes
  short := by
    unfold encodeName at encodes
    have length := (Result.else_of_ok encodes).1
    rw [not_or] at length
    exact Nat.le_of_not_lt length.2

/-- The names of an operation that could be written are names. -/
theorem isName_of_encodeOperation
    {operation : Operation}
    {bytes : Bytes}
    (isKept : operation.IsKept)
    (encodes : encodeOperation operation = .ok bytes) :
    ∀ name ∈ operation.names, IsName name := by
  have kept := isKept.names
  cases operation with
  | createCollection database collection =>
      simp only [Operation.names, List.forall_mem_cons] at kept ⊢
      rcases Result.bind_eq_ok.mp encodes with ⟨_, first, encodes⟩
      rcases Result.bind_eq_ok.mp encodes with ⟨_, second, -⟩
      exact ⟨kept.1.isName first, kept.2.1.isName second, by simp⟩
  | put database collection id document =>
      simp only [Operation.names, List.forall_mem_cons] at kept ⊢
      rcases Result.bind_eq_ok.mp encodes with ⟨_, first, encodes⟩
      rcases Result.bind_eq_ok.mp encodes with ⟨_, second, -⟩
      exact ⟨kept.1.isName first, kept.2.1.isName second, by simp⟩
  | delete database collection id =>
      simp only [Operation.names, List.forall_mem_cons] at kept ⊢
      rcases Result.bind_eq_ok.mp encodes with ⟨_, first, encodes⟩
      rcases Result.bind_eq_ok.mp encodes with ⟨_, second, -⟩
      exact ⟨kept.1.isName first, kept.2.1.isName second, by simp⟩
  | createIndex database collection index =>
      simp only [Operation.names, List.forall_mem_cons] at kept ⊢
      rcases Result.bind_eq_ok.mp encodes with ⟨_, first, encodes⟩
      rcases Result.bind_eq_ok.mp encodes with ⟨_, second, encodes⟩
      rcases Result.bind_eq_ok.mp encodes with ⟨_, spec, -⟩
      rcases Result.bind_eq_ok.mp spec with ⟨_, third, spec⟩
      rcases Result.bind_eq_ok.mp spec with ⟨_, fourth, -⟩
      exact ⟨kept.1.isName first, kept.2.1.isName second,
        kept.2.2.1.isName third, kept.2.2.2.1.isName fourth, by simp⟩
  | dropIndex database collection name =>
      simp only [Operation.names, List.forall_mem_cons] at kept ⊢
      rcases Result.bind_eq_ok.mp encodes with ⟨_, first, encodes⟩
      rcases Result.bind_eq_ok.mp encodes with ⟨_, second, encodes⟩
      rcases Result.bind_eq_ok.mp encodes with ⟨_, third, -⟩
      exact ⟨kept.1.isName first, kept.2.1.isName second,
        kept.2.2.1.isName third, by simp⟩

/-- A record of kept operations is read back. -/
theorem Recovered.isRecordOf_of_encode
    {operations : List Operation}
    {payload : Bytes}
    (areKept : ∀ operation ∈ operations, operation.IsKept)
    (encodes : encodeOperations operations = .ok payload)
    (lsn : Nat) :
    IsRecordOf ⟨lsn, transactionType.toNat, payload⟩ operations := by
  rcases Result.bind_eq_ok.mp encodes with ⟨_, writesCount, rest⟩
  rcases Result.bind_eq_ok.mp rest with ⟨parts, encodesAll, -⟩
  have encoded :
      ∀ operation ∈ operations, ∃ bytes,
        encodeOperation operation = .ok bytes := by
    intro operation member
    rcases Lists.exists_of_mem_left (Result.forall₂_of_mapM encodesAll)
        member with ⟨bytes, -, encodesOne⟩
    exact ⟨bytes, encodesOne⟩
  rcases decodeOperations_encoded
      (fun operation member =>
        isName_of_encodeOperation (areKept operation member)
          (encoded operation member).choose_spec)
      (fun operation member => (areKept operation member).parts)
      (fun operation member =>
        fits_of_encodeOperation (encoded operation member).choose_spec)
      (fits_of_writeUIntBE writesCount) with
    ⟨written, isWritten, isRead⟩
  have same : written = payload :=
    Except.ok.inj (isWritten.symm.trans encodes)
  refine ⟨rfl, ?_⟩
  rw [← same, isRead, Result.mapM_eq_self_iff]
  intro operation member
  refine (restoreOperation_eq_iff (areKept operation member).parts).mpr ?_
  intro name isName
  exact ((areKept operation member).names name isName).2

end Encoding

section Carrying

variable
  {image : Image}
  {database collection : JsString}
  {store : StoreImage}

/-- What an operation of a collection is inside of it again. -/
theorem inStore_toOperation
    {operation : JournalOperation}
    (keys :
      ∀ key document, operation = .put key document ∨
        operation = .delete key →
          hexString (bytesFromHex key) = key) :
    (toOperation database collection operation).inStore =
      some operation := by
  cases operation with
  | put key document =>
      simp only [toOperation, Operation.inStore,
        keys key document (.inl rfl)]
  | delete key =>
      simp only [toOperation, Operation.inStore, keys key [] (.inr rfl)]
  | createIndex spec =>
      rfl
  | dropIndex name =>
      rfl

/-- The names of an operation say where it belongs. -/
theorem place_toOperation
    (database collection : JsString)
    (operation : JournalOperation) :
    (toOperation database collection operation).database = database ∧
      (toOperation database collection operation).collection =
        collection := by
  cases operation <;> exact ⟨rfl, rfl⟩

/-- The key of a document is that of its id. -/
theorem hexString_bytesFromHex_of_onDocument
    {operation : JournalOperation}
    (onDocument : operation.OnDocument) :
    ∀ key document, operation = .put key document ∨
      operation = .delete key →
        hexString (bytesFromHex key) = key := by
  have ofId :
      ∀ id : CustomId,
        hexString (bytesFromHex id.toHexString) = id.toHexString := by
    intro id
    have back : bytesFromHex id.toHexString = id.bytes :=
      bytesFromHex_hexString id.bytes
    rw [back]
    rfl
  rintro key document (rfl | rfl)
  · rcases onDocument with ⟨_, id, -, -, isKey⟩
    rw [← isKey]
    exact ofId id
  · rcases onDocument with ⟨id, isKey⟩
    rw [← isKey]
    exact ofId id

/-- An operation that a call may record. -/
theorem keys_of_recordedBy
    {store : Collection}
    {call : WriteCall}
    {operation : JournalOperation}
    (recorded : store.RecordedBy call operation) :
    ∀ key document, operation = .put key document ∨
      operation = .delete key →
        hexString (bytesFromHex key) = key := by
  rcases recorded with onDocument | ⟨_, _, -, -, rfl⟩ | ⟨_, -, -, rfl⟩
  · exact hexString_bytesFromHex_of_onDocument onDocument
  · rintro key document (isPut | isDelete)
    · cases isPut
    · cases isDelete
  · rintro key document (isPut | isDelete)
    · cases isPut
    · cases isDelete

/-- One operation of a collection does to all databases what it does to its
collection. -/
theorem Image.apply_toOperation
    {operation : JournalOperation}
    (keys :
      ∀ key document, operation = .put key document ∨
        operation = .delete key →
          hexString (bytesFromHex key) = key)
    (isStore : image.store? database collection = some store) :
    image.apply (toOperation database collection operation) =
      (store.apply operation).map (image.putStore database collection) := by
  have place := place_toOperation database collection operation
  unfold Image.apply
  rw [inStore_toOperation keys, place.1, place.2, isStore]

/-- The operations of a collection do to all databases what they do to the
collection. -/
theorem Image.applyRecord_toOperation
    {operations : List JournalOperation}
    (proper : OrderedTable.Proper image)
    (keys :
      ∀ operation ∈ operations, ∀ key document,
        operation = .put key document ∨ operation = .delete key →
          hexString (bytesFromHex key) = key)
    (isStore : image.store? database collection = some store) :
    image.applyRecord (operations.map (toOperation database collection)) =
      (store.applyAll operations).map
        (image.putStore database collection) := by
  induction operations generalizing image store with
  | nil =>
      have same : image.putStore database collection store = image :=
        OrderedTable.putIn_self proper isStore
      exact (congrArg some same).symm
  | cons operation rest inductionHypothesis =>
      rw [List.forall_mem_cons] at keys
      have first := Image.apply_toOperation keys.1 isStore
      unfold Image.applyRecord StoreImage.applyAll Journal.replay at *
      rw [List.map_cons, List.foldlM_cons, List.foldlM_cons, first]
      cases applies : store.apply operation with
      | none =>
          rfl
      | some next =>
          have isNext :
              (image.putStore database collection next).store? database
                collection = some next := by
            unfold Image.store? Image.putStore
            rw [OrderedTable.findIn?_putIn, if_pos ⟨rfl, rfl⟩]
          have isProper :
              OrderedTable.Proper
                (image.putStore database collection next) :=
            proper.putIn _ _ _
          have later := inductionHypothesis isProper keys.2 isNext
          have putTwice :
              (image.putStore database collection next).putStore database
                  collection =
                image.putStore database collection := by
            funext final
            exact OrderedTable.putIn_putIn _ _ _ _ _
          rw [putTwice] at later
          exact later

/-- Creating a collection that is not there. -/
theorem Image.applyRecord_createCollection
    (isNew : image.store? database collection = none) :
    image.applyRecord [.createCollection database collection] =
      some (image.putStore database collection .empty) := by
  unfold Image.applyRecord
  rw [Journal.replay_singleton]
  unfold Image.apply
  simp only [Operation.inStore, Operation.database, Operation.collection,
    isNew]

end Carrying

end SinterDb
