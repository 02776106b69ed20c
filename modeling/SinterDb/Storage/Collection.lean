import SinterDb.Storage.Planner

namespace SinterDb

open Unicode

/-!
# Collections

`InMemoryCollection`: the encoded documents by the hexadecimal form of their
`_id`, the indexes over them, and the numbers that give the keys of an index
lookup the order of insertion.  A write prepares everything, lets the journal
record it, and then changes the documents.
-/

/-- `JournalOperation`. -/
inductive JournalOperation where
  | put (key : JsString) (document : Bytes)
  | delete (key : JsString)
  | createIndex (spec : IndexSpec)
  | dropIndex (name : JsString)
  deriving Repr, DecidableEq

/-- `InMemoryCollection`, without its journal. -/
structure Collection where
  documents : JsMap JsString Bytes
  indexes : IndexSet
  sequence : Option (JsMap JsString Nat)
  nextSequence : Nat

/--
A write as far as it gets without the journal.  `commit` is the call of the
journal: the collection as it is during the call, the operations, and what the
answer of the journal then leads to.
-/
inductive Write (α : Type) where
  | done (collection : Collection) (result : Except Thrown α)
  | commit
      (during : Collection)
      (operations : List JournalOperation)
      (resume : Except Thrown Unit → Collection × Except Thrown α)

/-- A write with a given answer of the journal. -/
def Write.run
    {α : Type}
    (answer : Except Thrown Unit) : Write α → Collection × Except Thrown α
  | .done collection result => (collection, result)
  | .commit _ _ resume => resume answer

/-- A write whose result is used further. -/
def Write.map
    {α β : Type}
    (use : α → β) : Write α → Write β
  | .done collection result => .done collection (result.map use)
  | .commit during operations resume =>
      .commit during operations fun answer =>
        let (collection, result) := resume answer
        (collection, result.map use)

/-- `StorageFindOptions`. -/
structure StorageFindOptions where
  sort : Option (List SortEntry) := none
  skip : Option JsNumber := none
  limit : Option JsNumber := none

/-- `StorageUpdateResult`. -/
structure StorageUpdateResult where
  matchedCount : Nat
  modifiedCount : Nat
  upsertedId : Option CustomId := none
  deriving Repr, DecidableEq

/-- `PreparedInsert`. -/
structure PreparedInsert where
  id : CustomId
  key : JsString
  encoded : Bytes
  deriving Repr, DecidableEq

/-- `LocatedDocument`. -/
structure LocatedDocument where
  key : JsString
  encoded : Bytes
  document : Document
  deriving Repr, DecidableEq

/-- The name of the `_id` field. -/
def idField : JsString := utf16 "_id"

/-- An `InvalidDocument` error. -/
def invalidDocument (message : String) : Thrown :=
  .storage ⟨.invalidDocument, utf16 message, none⟩

/-- `encodeStoredDocument`. -/
def encodeStoredDocument (document : Document) : Except Thrown Bytes :=
  match encodeDocument document with
  | .ok encoded => .ok encoded
  | .error _ => .error (invalidDocument "Document could not be encoded.")

/-- `resolveDocumentId`, with the id that is generated if it is needed. -/
def resolveDocumentId
    (generated : CustomId)
    (document : Document) : Except Thrown CustomId :=
  match Document.get? document idField with
  | none => .ok generated
  | some (.customId id) => .ok id
  | some _ =>
      .error (.storage
        ⟨.invalidDocumentId,
          utf16 "Document _id must be a CustomId when provided.", none⟩)

/-- `validateReplacement`. -/
def validateReplacement (replacement : Document) : Except Thrown Unit :=
  if replacement.any fun field => startsWithDollar field.1 then
    .error (invalidDocument
      "Replacement documents cannot contain update operators.")
  else
    .ok ()

/-- `validateSkip`. -/
def validateSkip : Option JsNumber → Except Thrown Nat
  | none => .ok 0
  | some skip =>
      match skip.toInt? with
      | some (.ofNat value) =>
          if skip.isSafeInteger then
            .ok value
          else
            .error (invalidSort
              (utf16 "Skip must be a non-negative safe integer."))
      | _ =>
          .error (invalidSort
            (utf16 "Skip must be a non-negative safe integer."))

/-- `validateLimit`. -/
def validateLimit : Option JsNumber → Except Thrown (Option Nat)
  | none => .ok none
  | some limit =>
      match limit.toInt? with
      | some (.ofNat (value + 1)) =>
          if limit.isSafeInteger then
            .ok (some (value + 1))
          else
            .error (invalidSort
              (utf16 "Limit must be a positive safe integer."))
      | _ =>
          .error (invalidSort
            (utf16 "Limit must be a positive safe integer."))

/-- `prepareUpdate`: none when the update changes nothing. -/
def prepareUpdate
    (located : LocatedDocument)
    (apply : CompiledUpdate) : Except Thrown (Option (JsString × Bytes)) := do
  let document ← apply located.document
  let encoded ← encodeStoredDocument document
  return if encoded = located.encoded then none else some (located.key, encoded)

/-- The first candidate that matches, with its document. -/
def firstMatch
    (test : CompiledFilter) :
    List (JsString × Bytes) → Except Thrown (Option LocatedDocument)
  | [] => .ok none
  | (key, encoded) :: rest => do
      let document ← liftProtocol (decodeDocument encoded)
      if test document then
        return some ⟨key, encoded, document⟩
      else
        firstMatch test rest

/-- All candidates that match, with their documents. -/
def allMatches
    (test : CompiledFilter) :
    List (JsString × Bytes) → Except Thrown (List LocatedDocument)
  | [] => .ok []
  | (key, encoded) :: rest => do
      let document ← liftProtocol (decodeDocument encoded)
      let later ← allMatches test rest
      return if test document then ⟨key, encoded, document⟩ :: later else later

/-- What the loop of `updateMany` collects. -/
structure PendingUpdates where
  matched : Nat
  pending : List (JsString × Bytes)
  changes : List DocumentChange

/-- What two parts of the loop of `updateMany` collect. -/
def PendingUpdates.append (left right : PendingUpdates) : PendingUpdates :=
  ⟨left.matched + right.matched, left.pending ++ right.pending,
    left.changes ++ right.changes⟩

/-- One candidate in the loop of `updateMany`. -/
def collectUpdate
    (indexed : Bool)
    (test : CompiledFilter)
    (apply : CompiledUpdate)
    (candidate : JsString × Bytes) : Except Thrown PendingUpdates := do
  let (key, encoded) := candidate
  let document ← liftProtocol (decodeDocument encoded)
  if !test document then
    return ⟨0, [], []⟩
  match ← prepareUpdate ⟨key, encoded, document⟩ apply with
  | none => return ⟨1, [], []⟩
  | some prepared =>
      if !indexed then
        return ⟨1, [prepared], []⟩
      let after ← liftProtocol (decodeDocument prepared.2)
      return ⟨1, [prepared], [⟨key, some document, some after⟩]⟩

/-- The loop of `updateMany`. -/
def collectUpdates
    (indexed : Bool)
    (test : CompiledFilter)
    (apply : CompiledUpdate) :
    List (JsString × Bytes) → Except Thrown PendingUpdates
  | [] => .ok ⟨0, [], []⟩
  | candidate :: rest => do
      let first ← collectUpdate indexed test apply candidate
      let later ← collectUpdates indexed test apply rest
      return first.append later

namespace Collection

/-- A new collection without documents. -/
def empty : Collection where
  documents := .empty
  indexes := .empty
  sequence := none
  nextSequence := 1

/-- `plan`. -/
def plan (collection : Collection) (filter : Document) : QueryPlan :=
  planQuery filter (IndexSet.all collection.indexes) collection.documents.size

/-- The keys that `candidates` looks up; none when it scans. -/
def planKeys
    (collection : Collection)
    (filter : Document) : Option (List JsString) :=
  if IndexSet.isEmpty collection.indexes then
    none
  else
    candidateKeys (collection.plan filter)

/-- The number of a key; every stored key has one while there are indexes. -/
def sequenceOf (collection : Collection) (key : JsString) : Nat :=
  (collection.sequence.bind fun sequence => sequence.get? key).getD 0

/-- The stored ones of some keys, in the order of insertion. -/
def orderedKeys
    (collection : Collection)
    (keys : List JsString) : List JsString :=
  (keys.filter collection.documents.has).insertionSort fun left right =>
    collection.sequenceOf left ≤ collection.sequenceOf right

/-- `candidates`, for a caller that changes nothing on the way. -/
def candidates
    (collection : Collection)
    (filter : Document) : List (JsString × Bytes) :=
  match collection.planKeys filter with
  | none => collection.documents.entries
  | some keys =>
      (collection.orderedKeys keys).filterMap fun key =>
        (collection.documents.get? key).map fun encoded => (key, encoded)

/-- `decodedEntries`. -/
def decodedEntries
    (collection : Collection) :
    List (Except Thrown (JsString × Document)) :=
  collection.documents.entries.map fun entry => do
    let document ← liftProtocol (decodeDocument entry.2)
    return (entry.1, document)

/-- The next number given to a key. -/
def numberKey (collection : Collection) (key : JsString) : Collection :=
  { collection with
    sequence :=
      collection.sequence.map fun sequence =>
        sequence.set key collection.nextSequence
    nextSequence := collection.nextSequence + 1 }

/-- The numbering of the documents that a first index starts. -/
def numberDocuments (collection : Collection) : Collection :=
  collection.documents.keys.foldl numberKey
    { collection with sequence := some .empty }

/-- `buildIndex`. -/
def buildIndex
    (collection : Collection)
    (spec : IndexSpec) : Except Thrown (Collection × Bool) := do
  let (indexes, result) ←
    IndexSet.create collection.indexes spec collection.decodedEntries
  let built := { collection with indexes := indexes }
  match result with
  | .exists => return (built, false)
  | .created =>
      if collection.sequence.isNone then
        return (built.numberDocuments, true)
      else
        return (built, true)

/-- The constructor, with recovered documents and indexes. -/
def create
    (documents : JsMap JsString Bytes)
    (specs : List IndexSpec) : Except Thrown Collection :=
  specs.foldlM
    (fun collection spec => do
      let (built, _) ← collection.buildIndex spec
      return built)
    { empty with documents := documents }

/-- `removeIndex`. -/
def removeIndex (collection : Collection) (name : JsString) : Collection :=
  let indexes := IndexSet.drop collection.indexes name
  { collection with
    indexes := indexes
    sequence :=
      if IndexSet.isEmpty indexes then none else collection.sequence }

/-- `put`. -/
def put
    (collection : Collection)
    (key : JsString)
    (encoded : Bytes) : Collection :=
  let numbered :=
    match collection.sequence with
    | none => collection
    | some sequence =>
        if collection.documents.has key then
          collection
        else
          { collection with
            sequence := some (sequence.set key collection.nextSequence)
            nextSequence := collection.nextSequence + 1 }
  { numbered with documents := numbered.documents.set key encoded }

/-- `remove`. -/
def remove (collection : Collection) (key : JsString) : Collection :=
  { collection with
    documents := collection.documents.delete key
    sequence := collection.sequence.map fun sequence => sequence.delete key }

/-- Some documents put, in order. -/
def putAll
    (collection : Collection)
    (entries : List (JsString × Bytes)) : Collection :=
  entries.foldl (fun collection entry => collection.put entry.1 entry.2)
    collection

/-- Some keys removed, in order. -/
def removeAll (collection : Collection) (keys : List JsString) : Collection :=
  keys.foldl remove collection

/-- `trackChanges`. -/
def trackChanges
    (collection : Collection)
    (changes : List DocumentChange) :
    Collection × Except Thrown (List UndoStep) :=
  let (indexes, result) := IndexSet.applyChanges collection.indexes changes
  ({ collection with indexes := indexes }, result)

/-- `trackInsert`. -/
def trackInsert
    (collection : Collection)
    (prepared : PreparedInsert) :
    Collection × Except Thrown (List UndoStep) :=
  if IndexSet.isEmpty collection.indexes then
    (collection, .ok [])
  else
    match decodeDocument prepared.encoded with
    | .error error => (collection, .error (.protocol error))
    | .ok document =>
        collection.trackChanges [⟨prepared.key, none, some document⟩]

/-- The rollback of tracked changes. -/
def rollback
    (collection : Collection)
    (undo : List UndoStep) : Collection :=
  { collection with indexes := IndexSet.rollback undo collection.indexes }

/--
The last part of a write: commit the operations, if there are any, and change
the documents; undo the tracked changes if the journal throws.
-/
def commit
    {α : Type}
    (collection : Collection)
    (undo : List UndoStep)
    (operations : List JournalOperation)
    (change : Collection → Collection)
    (result : Except Thrown α) : Write α :=
  if operations = [] then
    .done (change collection) result
  else
    .commit collection operations fun answer =>
      match answer with
      | .error error => (collection.rollback undo, .error error)
      | .ok _ => (change collection, result)

/-- The changes tracked, and then the last part of a write. -/
def trackAndCommit
    {α : Type}
    (collection : Collection)
    (changes : List DocumentChange)
    (operations : List JournalOperation)
    (change : Collection → Collection)
    (result : α) : Write α :=
  match collection.trackChanges changes with
  | (collection, .error error) => .done collection (.error error)
  | (collection, .ok undo) =>
      collection.commit undo operations change (.ok result)

/-- `prepareInsert`. -/
def prepareInsert
    (collection : Collection)
    (pending : List JsString)
    (generated : CustomId)
    (document : Document) : Except Thrown PreparedInsert := do
  let id ← resolveDocumentId generated document
  let key := id.toHexString
  if collection.documents.has key || pending.contains key then
    throw (.storage
      ⟨.duplicateId,
        utf16 "A document with _id " ++ Json.quote key ++
          utf16 " already exists.",
        none⟩)
  let encoded ←
    encodeStoredDocument (Document.set document idField (.customId id))
  return ⟨id, key, encoded⟩

/-- An insert as far as its commit: prepared and tracked. -/
def tryInsert
    (collection : Collection)
    (pending : List JsString)
    (generated : CustomId)
    (document : Document) :
    Collection × Except Thrown (PreparedInsert × List UndoStep) :=
  match collection.prepareInsert pending generated document with
  | .error error => (collection, .error error)
  | .ok prepared =>
      let (collection, tracked) := collection.trackInsert prepared
      (collection, tracked.map fun undo => (prepared, undo))

/-- `insertOne`. -/
def insertOne
    (collection : Collection)
    (generated : CustomId)
    (document : Document) : Write CustomId :=
  match collection.tryInsert [] generated document with
  | (collection, .error error) => .done collection (.error error)
  | (collection, .ok (prepared, undo)) =>
      collection.commit undo [.put prepared.key prepared.encoded]
        (fun collection => collection.put prepared.key prepared.encoded)
        (.ok prepared.id)

/-- What the loop of `insertMany` ends with. -/
structure InsertBatch where
  accepted : List PreparedInsert
  rollbacks : List (List UndoStep)
  failure : Option (Nat × StorageError)

/-- The loop of `insertMany`; an error that it does not catch is thrown. -/
def insertLoop
    (generated : Nat → CustomId) :
    List Document → Nat → Collection → List PreparedInsert →
      List (List UndoStep) → Collection × Except Thrown InsertBatch
  | [], _, collection, accepted, rollbacks =>
      (collection, .ok ⟨accepted, rollbacks, none⟩)
  | document :: rest, index, collection, accepted, rollbacks =>
      match collection.tryInsert (accepted.map PreparedInsert.key)
          (generated index) document with
      | (collection, .ok (prepared, undo)) =>
          insertLoop generated rest (index + 1) collection
            (accepted ++ [prepared]) (rollbacks ++ [undo])
      | (collection, .error (.storage error)) =>
          (collection, .ok ⟨accepted, rollbacks, some (index, error)⟩)
      | (collection, .error error) => (collection, .error error)

/-- The `StorageInsertManyError` of a failed document. -/
def insertManyError
    (failedIndex : Nat)
    (insertedIds : List CustomId)
    (error : StorageError) : Thrown :=
  .storage
    { code := error.code
      message :=
        utf16 "Insert failed at batch index " ++ Json.decimal failedIndex ++
          utf16 ": " ++ error.message
      insertMany :=
        some ⟨failedIndex, insertedIds, error.code, error.message⟩ }

/-- `insertMany`. -/
def insertMany
    (collection : Collection)
    (generated : Nat → CustomId)
    (documents : List Document) : Write (List CustomId) :=
  if documents = [] then
    .done collection (.error (.storage
      ⟨.invalidBatch, utf16 "insertMany requires at least one document.",
        none⟩))
  else
    match insertLoop generated documents 0 collection [] [] with
    | (collection, .error error) => .done collection (.error error)
    | (collection, .ok batch) =>
        let insertedIds := batch.accepted.map PreparedInsert.id
        collection.commit batch.rollbacks.flatten
          (batch.accepted.map fun entry => .put entry.key entry.encoded)
          (fun collection =>
            collection.putAll
              (batch.accepted.map fun entry => (entry.key, entry.encoded)))
          (match batch.failure with
          | some (index, error) =>
              .error (insertManyError index insertedIds error)
          | none => .ok insertedIds)

/-- `findById`. -/
def findById
    (collection : Collection)
    (id : CustomId) : Except Thrown (Option Document) :=
  match collection.documents.get? id.toHexString with
  | none => .ok none
  | some encoded => some <$> liftProtocol (decodeDocument encoded)

/-- `findOne`. -/
def findOne
    (collection : Collection)
    (filter : Document) : Except Thrown (Option Document) := do
  let test ← compileFilter filter
  match Document.get? filter idField with
  | some (.customId id) =>
      let document ← collection.findById id
      return document.filter test
  | _ =>
      let located ← firstMatch test (collection.candidates filter)
      return located.map LocatedDocument.document

/-- `locate`. -/
def locate
    (collection : Collection)
    (filter : Document)
    (test : CompiledFilter) : Except Thrown (Option LocatedDocument) :=
  match Document.get? filter idField with
  | some (.customId id) =>
      let key := id.toHexString
      match collection.documents.get? key with
      | none => .ok none
      | some encoded => do
          let document ← liftProtocol (decodeDocument encoded)
          return if test document then some ⟨key, encoded, document⟩ else none
  | _ => firstMatch test (collection.candidates filter)

/-- A write that stops at an error before it has changed anything. -/
def attempt
    {α β : Type}
    (collection : Collection)
    (result : Except Thrown α)
    (next : α → Write β) : Write β :=
  match result with
  | .error error => .done collection (.error error)
  | .ok value => next value

/-- `deleteOne`: how many documents it deleted. -/
def deleteOne (collection : Collection) (filter : Document) : Write Nat :=
  collection.attempt (compileFilter filter) fun test =>
    collection.attempt (collection.locate filter test) fun located =>
      match located with
      | none => .done collection (.ok 0)
      | some located =>
          collection.trackAndCommit
            [⟨located.key, some located.document, none⟩]
            [.delete located.key]
            (fun collection => collection.remove located.key)
            1

/-- `deleteMany`: how many documents it deleted. -/
def deleteMany (collection : Collection) (filter : Document) : Write Nat :=
  collection.attempt (compileFilter filter) fun test =>
    collection.attempt
      (allMatches test (collection.candidates filter)) fun located =>
        let keys := located.map LocatedDocument.key
        collection.trackAndCommit
          (if IndexSet.isEmpty collection.indexes then
            []
          else
            located.map fun entry => ⟨entry.key, some entry.document, none⟩)
          (keys.map .delete)
          (fun collection => collection.removeAll keys)
          keys.length

/-- The document that `replaceOne` inserts when nothing matches. -/
def upsertReplacement
    (filter replacement : Document) : Except Thrown Document :=
  match Document.get? filter idField, Document.get? replacement idField with
  | some (.customId filterId), some requested =>
      if requested = .customId filterId then
        .ok replacement
      else
        .error immutableId
  | some (.customId filterId), none =>
      .ok (Document.set replacement idField (.customId filterId))
  | _, _ => .ok replacement

/-- The document that `replaceOne` stores in the place of another. -/
def replacementFor
    (existing replacement : Document) : Except Thrown Document :=
  match Document.get? existing idField with
  | none => .error (invalidDocument "Document could not be encoded.")
  | some existingId =>
      match Document.get? replacement idField with
      | none => .ok (Document.set replacement idField existingId)
      | some (.customId requested) =>
          if .customId requested = existingId then
            .ok (Document.set replacement idField existingId)
          else
            .error immutableId
      | some _ => .error immutableId

/-- The upsert of a write that matched nothing. -/
def upsert
    (collection : Collection)
    (generated : CustomId)
    (document : Document) : Write StorageUpdateResult :=
  (collection.insertOne generated document).map fun id => ⟨0, 0, some id⟩

/-- One stored document replaced by another encoding. -/
def replaceStored
    (collection : Collection)
    (located : LocatedDocument)
    (encoded : Bytes) : Write StorageUpdateResult :=
  collection.attempt (liftProtocol (decodeDocument encoded)) fun after =>
    collection.trackAndCommit
      [⟨located.key, some located.document, some after⟩]
      [.put located.key encoded]
      (fun collection => collection.put located.key encoded)
      ⟨1, 1, none⟩

/-- `replaceOne`. -/
def replaceOne
    (collection : Collection)
    (filter replacement : Document)
    (upserts : Bool)
    (generated : CustomId) : Write StorageUpdateResult :=
  collection.attempt (compileFilter filter) fun test =>
    collection.attempt (validateReplacement replacement) fun _ =>
      collection.attempt (collection.locate filter test) fun located =>
        match located with
        | none =>
            if upserts then
              collection.attempt (upsertReplacement filter replacement)
                (collection.upsert generated)
            else
              .done collection (.ok ⟨0, 0, none⟩)
        | some located =>
            let encoding := do
              let document ← replacementFor located.document replacement
              encodeStoredDocument document
            collection.attempt encoding fun encoded =>
              if encoded = located.encoded then
                .done collection (.ok ⟨1, 0, none⟩)
              else
                collection.replaceStored located encoded

/-- `upsertFromUpdate`. -/
def upsertFromUpdate
    (collection : Collection)
    (filter : Document)
    (apply : CompiledUpdate)
    (upserts : Bool)
    (generated : CustomId) : Write StorageUpdateResult :=
  if upserts then
    collection.attempt (seedDocumentFromFilter filter >>= apply)
      (collection.upsert generated)
  else
    .done collection (.ok ⟨0, 0, none⟩)

/--
`updateOne`.  Without indexes the source leaves out the document before the
change, which no index then looks at.
-/
def updateOne
    (collection : Collection)
    (filter update : Document)
    (upserts : Bool)
    (generated : CustomId) : Write StorageUpdateResult :=
  collection.attempt (compileFilter filter) fun test =>
    collection.attempt (compileUpdate update) fun apply =>
      collection.attempt (collection.locate filter test) fun located =>
        match located with
        | none => collection.upsertFromUpdate filter apply upserts generated
        | some located =>
            collection.attempt (prepareUpdate located apply) fun pending =>
              match pending with
              | none => .done collection (.ok ⟨1, 0, none⟩)
              | some (_, encoded) => collection.replaceStored located encoded

/-- `updateMany`. -/
def updateMany
    (collection : Collection)
    (filter update : Document)
    (upserts : Bool)
    (generated : CustomId) : Write StorageUpdateResult :=
  collection.attempt (compileFilter filter) fun test =>
    collection.attempt (compileUpdate update) fun apply =>
      collection.attempt
        (collectUpdates (!IndexSet.isEmpty collection.indexes) test apply
          (collection.candidates filter)) fun updates =>
        if updates.matched = 0 then
          collection.upsertFromUpdate filter apply upserts generated
        else
          collection.trackAndCommit updates.changes
            (updates.pending.map fun entry => .put entry.1 entry.2)
            (fun collection => collection.putAll updates.pending)
            ⟨updates.matched, updates.pending.length, none⟩

/-- `createIndex`: the name of the index, and whether it is new. -/
def createIndex
    (collection : Collection)
    (input : CreateIndexInput) : Write (JsString × Bool) :=
  collection.attempt (normalizeIndexSpec input) fun spec =>
    collection.attempt (collection.buildIndex spec) fun (built, created) =>
      if created then
        .commit built [.createIndex spec] fun answer =>
          match answer with
          | .error error => (built.removeIndex spec.name, .error error)
          | .ok _ => (built, .ok (spec.name, true))
      else
        .done built (.ok (spec.name, false))

/-- `dropIndex`. -/
def dropIndex (collection : Collection) (name : JsString) : Write Unit :=
  if name = idIndexName then
    .done collection
      (.error (invalidIndex (utf16 "The _id index cannot be dropped.")))
  else if collection.indexes.has name then
    .commit collection [.dropIndex name] fun answer =>
      match answer with
      | .error error => (collection, .error error)
      | .ok _ => (collection.removeIndex name, .ok ())
  else
    .done collection (.error (.storage
      ⟨.indexNotFound,
        utf16 "There is no index named " ++ Json.quote name ++ utf16 ".",
        none⟩))

end Collection

end SinterDb
