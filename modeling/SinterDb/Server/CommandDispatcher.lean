import SinterDb.Server.BatchSize
import SinterDb.Server.CommandParameters
import SinterDb.Storage.IndexValidation

namespace SinterDb

open Unicode

/-!
# The commands of a server

`CommandDispatcher`: a command reads its parameters, finds or creates its
collection and calls it.  The state behind a command is part of its result,
also when it throws.
-/

/-- `SERVER_PRODUCT`. -/
def serverProduct : String := "sinterdb-server"

/-- `SERVER_PRODUCT_VERSION`. -/
def serverProductVersion : String := "0.2.0"

/-- `ServerCommand`. -/
inductive ServerCommand where
  | serverInfo
  | listDatabases
  | createCollection
  | listCollections
  | insertOne
  | insertMany
  | deleteOne
  | deleteMany
  | replaceOne
  | updateOne
  | updateMany
  | findOne
  | find
  | getMore
  | closeCursor
  | createIndex
  | dropIndex
  | listIndexes
  | explain
  | validateIndexes
  deriving Repr, DecidableEq

/-- The name of a command. -/
def ServerCommand.name : ServerCommand → JsString
  | .serverInfo => utf16 "serverInfo"
  | .listDatabases => utf16 "listDatabases"
  | .createCollection => utf16 "createCollection"
  | .listCollections => utf16 "listCollections"
  | .insertOne => utf16 "insertOne"
  | .insertMany => utf16 "insertMany"
  | .deleteOne => utf16 "deleteOne"
  | .deleteMany => utf16 "deleteMany"
  | .replaceOne => utf16 "replaceOne"
  | .updateOne => utf16 "updateOne"
  | .updateMany => utf16 "updateMany"
  | .findOne => utf16 "findOne"
  | .find => utf16 "find"
  | .getMore => utf16 "getMore"
  | .closeCursor => utf16 "closeCursor"
  | .createIndex => utf16 "createIndex"
  | .dropIndex => utf16 "dropIndex"
  | .listIndexes => utf16 "listIndexes"
  | .explain => utf16 "explain"
  | .validateIndexes => utf16 "validateIndexes"

/-- The command with a name. -/
def ServerCommand.ofName? (name : JsString) : Option ServerCommand :=
  [ServerCommand.serverInfo, .listDatabases, .createCollection,
    .listCollections, .insertOne, .insertMany, .findOne, .deleteOne,
    .deleteMany, .replaceOne, .updateOne, .updateMany, .find, .getMore,
    .closeCursor, .createIndex, .dropIndex, .listIndexes, .explain,
    .validateIndexes].find? fun command => command.name == name

/--
The generator of a cursor, with the collection it reads.  It keeps what it has
thrown, and ends there.
-/
structure ServerScan where
  space : Namespace
  scan : Scan
  failed : Option Thrown

/-- What a command takes from outside: fresh ids and the clock. -/
structure Moment where
  generated : Nat → CustomId
  sweepTime : Int
  useTime : Int

/-- A catalog and the cursors of a session. -/
structure Server where
  catalog : Catalog
  cursors : CursorManager ServerScan

/-- The answer to a command, or what it throws. -/
abbrev Reply := Except DispatchError Document

namespace Collection

/-- `listIndexes`; `idIndexSpec` is first. -/
def listIndexes (collection : Collection) : List IndexSpec :=
  ⟨idIndexName, idField, false, true, false⟩ ::
    IndexSet.specs collection.indexes

/-- A bound in the description of a plan. -/
def describeBound
    (name : String)
    (bound : Option IndexBound) : Document :=
  match bound with
  | none => []
  | some bound =>
      [(utf16 name,
        .document
          [(utf16 "value", bound.value),
            (utf16 "inclusive", .boolean bound.inclusive)])]

/-- `describePlan`. -/
def describePlan (plan : QueryPlan) (documents : Nat) : Document :=
  match plan with
  | .collScan estimated =>
      [textField "stage" (utf16 "COLLSCAN"),
        numberField "estimatedCandidates" estimated,
        numberField "documents" documents]
  | .idLookup _ estimated =>
      [textField "stage" (utf16 "IDLOOKUP"),
        textField "index" idIndexName,
        textField "field" idField,
        textField "access" (utf16 "equality"),
        numberField "estimatedCandidates" estimated,
        numberField "documents" documents]
  | .ixScan index access viaMembership estimated =>
      [textField "stage" (utf16 "IXSCAN"),
        textField "index" index.spec.name,
        textField "field" index.spec.field,
        numberField "estimatedCandidates" estimated,
        numberField "documents" documents] ++
      match access with
      | .range _ lower upper =>
          textField "access" (utf16 "range") ::
            (describeBound "lower" lower ++ describeBound "upper" upper)
      | .equal _ =>
          [textField "access"
            (utf16 (if viaMembership then "in" else "equality"))]

/-- `explain`. -/
def explain
    (collection : Collection)
    (filter : Document) : Except Thrown Document := do
  let _ ← compileFilter filter
  return describePlan (collection.plan filter) collection.documents.size

/-- `validateIndexes`; without an index no document is decoded. -/
def validateIndexes
    (collection : Collection) : Except Thrown (List IndexIssue) :=
  if IndexSet.isEmpty collection.indexes then
    .ok []
  else do
    let documents ← collection.decodedEntries.mapM id
    return IndexSet.validate collection.indexes documents

/-- `find`, with any array as its sort. -/
def findWith
    (filter : Document)
    (options : FindParameters) : Except Thrown Scan := do
  let _ ← compileFilter filter
  let sort ← options.sort.mapM sortSpecification
  find filter ⟨sort, options.skip, options.limit⟩

end Collection

/-- `next` of the generator of a cursor. -/
def Catalog.next
    (catalog : Catalog)
    (cursor : ServerScan) : Option Document × ServerScan :=
  match cursor.failed with
  | some _ => (none, cursor)
  | none =>
      let collection :=
        (catalog.lookup cursor.space.database
          cursor.space.collection).getD .empty
      match cursor.scan.next collection with
      | (.ok document, scan) => (document, { cursor with scan := scan })
      | (.error error, scan) =>
          (none, { cursor with scan := scan, failed := some error })

/-- What a generator throws while a batch is taken. -/
def thrownInBatch
    (next : ServerScan → Option Document × ServerScan)
    (state : CursorState ServerScan)
    (batchSize : JsNumber)
    (maxBatchBytes : Nat) : Option (Thrown × CursorState ServerScan) := do
  let size ← positiveSafeInteger? batchSize
  let after := (takeBatch next state size maxBatchBytes).2
  let error ← after.iterator.failed
  return (error,
    { after with
      iterator := { after.iterator with failed := none }
      exhausted := state.exhausted })

namespace Server

/-- What a command throws for its parameters, before anything is done. -/
def check
    {α : Type}
    (server : Server)
    (checked : Except CommandExecutionError α)
    (next : α → Reply × Server) : Reply × Server :=
  match checked with
  | .error error => (.error (.command error), server)
  | .ok value => next value

/-- The `catch` of a command. -/
def catching (result : Except Failure Document × Server) : Reply × Server :=
  (result.1.mapError translate, result.2)

/-- The `catch` of a command that only calls the catalog. -/
def catchingCatalog
    (result : Except Failure Document × Server) : Reply × Server :=
  (result.1.mapError translateCatalog, result.2)

/-- A command on a collection that may be missing. -/
def onCollection
    (server : Server)
    (space : Namespace)
    (missing : Except Thrown Document)
    (present : Collection → Except Failure Document × Server) :
    Reply × Server :=
  catching
    (match server.catalog.getCollection space.database space.collection with
    | .error error => (.error error, server)
    | .ok none => (missing.mapError .thrown, server)
    | .ok (some collection) => present collection)

/-- A command on a collection that is created when it is missing. -/
def onCreated
    (server : Server)
    (space : Namespace)
    (present : Server → Collection → Except Failure Document × Server) :
    Reply × Server :=
  catching
    (match
      server.catalog.getOrCreateCollection space.database space.collection with
    | (.error error, catalog) =>
        (.error error, { server with catalog := catalog })
    | (.ok collection, catalog) =>
        present { server with catalog := catalog } collection)

/-- A write of a collection, and the answer to it. -/
def write
    {α : Type}
    (server : Server)
    (space : Namespace)
    (write : Write α)
    (reply : α → Document) : Except Failure Document × Server :=
  let (result, catalog) :=
    server.catalog.perform space.database space.collection write
  ((result.map reply).mapError .thrown, { server with catalog := catalog })

/-- A read of a collection. -/
def read
    (server : Server)
    (result : Except Thrown Document) : Except Failure Document × Server :=
  (result.mapError .thrown, server)

/-- `serverInfo`. -/
def serverInfo : Document :=
  [textField "product" (utf16 serverProduct),
    textField "productVersion" (utf16 serverProductVersion),
    numberField "protocolVersion" protocolVersion,
    (utf16 "capabilities",
      .array [.string (utf16 "typed-documents"), .string (utf16 "streaming")])]

/-- An array of texts. -/
def textArray (texts : List JsString) : DocumentValue :=
  .array (texts.map .string)

/-- `listDatabases`. -/
def listDatabases (server : Server) : Document :=
  [(utf16 "databases", textArray server.catalog.listDatabases)]

/-- `createCollection`. -/
def createCollection
    (server : Server)
    (command : CommandEnvelope) : Reply × Server :=
  let checked := do
    let database ← requireDatabase command
    let collection ← requireStringParameter "name" command.parameters
    return (⟨database, collection⟩ : Namespace)
  server.check checked fun space =>
    let (created, catalog) :=
      server.catalog.createCollection space.database space.collection
    catchingCatalog
      (created.map fun _ =>
        [textField "database" space.database,
          textField "collection" space.collection,
          (utf16 "created", .boolean true)],
        { server with catalog := catalog })

/-- `listCollections`. -/
def listCollections
    (server : Server)
    (command : CommandEnvelope) : Reply × Server :=
  server.check (requireDatabase command) fun database =>
    catchingCatalog
      ((server.catalog.listCollections database).map fun collections =>
        [textField "database" database,
          (utf16 "collections", textArray collections)],
        server)

/-- The field that says that a write is acknowledged. -/
def acknowledged : JsString × DocumentValue :=
  (utf16 "acknowledged", .boolean true)

/-- What `deleteDocuments`, `explain` and `findOne` check. -/
def filterParameters
    (command : CommandEnvelope) :
    Except CommandExecutionError (Namespace × Document) := do
  let space ← requireNamespace command
  let filter ← requireDocumentParameter "filter" command.parameters
  return (space, filter)

/-- The answer to `deleteOne` and `deleteMany`. -/
def toDeleteResult (deletedCount : Nat) : Document :=
  [acknowledged, numberField "deletedCount" deletedCount]

/-- `deleteDocuments`. -/
def deleteDocuments
    (server : Server)
    (command : CommandEnvelope)
    (many : Bool) : Reply × Server :=
  server.check (filterParameters command) fun (space, filter) =>
    let missing := do
      let _ ← compileFilter filter
      return toDeleteResult 0
    server.onCollection space missing fun collection =>
      server.write space
        (if many then
          collection.deleteMany filter
        else
          collection.deleteOne filter)
        toDeleteResult

/-- `toWriteResult`. -/
def toWriteResult (result : StorageUpdateResult) : Document :=
  [acknowledged,
    numberField "matchedCount" result.matchedCount,
    numberField "modifiedCount" result.modifiedCount,
    (utf16 "upsertedId", (result.upsertedId.map .customId).getD .null)]

/-- What `replaceOne`, `updateOne` and `updateMany` check. -/
structure UpdateParameters where
  space : Namespace
  filter : Document
  change : Document
  upsert : Bool

/-- The checks of a change under a name. -/
def updateParameters
    (change : String)
    (command : CommandEnvelope) :
    Except CommandExecutionError UpdateParameters := do
  let space ← requireNamespace command
  let filter ← requireDocumentParameter "filter" command.parameters
  let change ← requireDocumentParameter change command.parameters
  let upsert ← optionalBooleanParameter "upsert" command.parameters
  return ⟨space, filter, change, upsert⟩

/-- A change of a collection, which an upsert creates. -/
def changeDocuments
    (server : Server)
    (parameters : UpdateParameters)
    (missing : Except Thrown Unit)
    (change : Collection → Write StorageUpdateResult) : Reply × Server :=
  if parameters.upsert then
    server.onCreated parameters.space fun server collection =>
      server.write parameters.space (change collection) toWriteResult
  else
    server.onCollection parameters.space
      (missing.map fun _ => toWriteResult ⟨0, 0, none⟩) fun collection =>
        server.write parameters.space (change collection) toWriteResult

/-- `replaceOne`. -/
def replaceOne
    (server : Server)
    (command : CommandEnvelope)
    (moment : Moment) : Reply × Server :=
  server.check (updateParameters "replacement" command) fun parameters =>
    server.changeDocuments parameters
      (do
        let _ ← compileFilter parameters.filter
        return ())
      fun collection =>
        collection.replaceOne parameters.filter parameters.change
          parameters.upsert (moment.generated 0)

/-- `updateDocuments`. -/
def updateDocuments
    (server : Server)
    (command : CommandEnvelope)
    (moment : Moment)
    (many : Bool) : Reply × Server :=
  server.check (updateParameters "update" command) fun parameters =>
    server.changeDocuments parameters
      (do
        let _ ← compileFilter parameters.filter
        let _ ← compileUpdate parameters.change
        return ())
      fun collection =>
        if many then
          collection.updateMany parameters.filter parameters.change
            parameters.upsert (moment.generated 0)
        else
          collection.updateOne parameters.filter parameters.change
            parameters.upsert (moment.generated 0)

/-- `createIndex`; the definition is checked before the collection exists. -/
def createIndex
    (server : Server)
    (command : CommandEnvelope) : Reply × Server :=
  let checked := do
    let space ← requireNamespace command
    let index ← requireDocumentParameter "index" command.parameters
    let index ← parseIndexInput index
    return (space, index)
  server.check checked fun (space, index) =>
    let defined := do
      let input ← indexInput index
      let _ ← normalizeIndexSpec input
      return input
    match defined with
    | .error error => (.error (translate (.thrown error)), server)
    | .ok input =>
        server.onCreated space fun server collection =>
          server.write space (collection.createIndex input)
            fun (name, created) =>
              [acknowledged, textField "name" name,
                (utf16 "created", .boolean created)]

/-- `dropIndex`. -/
def dropIndex
    (server : Server)
    (command : CommandEnvelope) : Reply × Server :=
  let checked := do
    let space ← requireNamespace command
    let name ← requireStringParameter "name" command.parameters
    return (space, name)
  server.check checked fun (space, name) =>
    let missing :=
      .error (.storage
        ⟨.indexNotFound,
          utf16 "There is no index named " ++ Json.quote name ++ utf16 ".",
          none⟩)
    server.onCollection space missing fun collection =>
      server.write space (collection.dropIndex name) fun _ => [acknowledged]

/-- A definition in the answer to `listIndexes`. -/
def describeIndex (spec : IndexSpec) : DocumentValue :=
  .document
    [textField "name" spec.name,
      textField "field" spec.field,
      numberField "direction" (if spec.descending then -1 else 1),
      (utf16 "unique", .boolean spec.unique),
      (utf16 "sparse", .boolean spec.sparse)]

/-- The answer to `listIndexes`. -/
def toIndexList (specs : List IndexSpec) : Document :=
  [(utf16 "indexes", .array (specs.map describeIndex))]

/-- `listIndexes`. -/
def listIndexes
    (server : Server)
    (command : CommandEnvelope) : Reply × Server :=
  server.check (requireNamespace command) fun space =>
    server.onCollection space (.ok (toIndexList [])) fun collection =>
      server.read (.ok (toIndexList collection.listIndexes))

/-- `explain`. -/
def explain
    (server : Server)
    (command : CommandEnvelope) : Reply × Server :=
  server.check (filterParameters command) fun (space, filter) =>
    let missing := do
      let _ ← compileFilter filter
      return [textField "stage" (utf16 "COLLSCAN"),
        numberField "estimatedCandidates" 0, numberField "documents" 0]
    server.onCollection space missing fun collection =>
      server.read (collection.explain filter)

/-- An issue in the answer to `validateIndexes`. -/
def describeIssue (issue : IndexIssue) : DocumentValue :=
  .document
    [textField "index" issue.index, textField "problem" issue.problem,
      textField "detail" issue.detail]

/-- The answer to `validateIndexes`. -/
def toIndexReport
    (indexes documents : Nat)
    (issues : List IndexIssue) : Document :=
  [(utf16 "valid", .boolean issues.isEmpty),
    numberField "indexes" indexes,
    numberField "documents" documents,
    (utf16 "issues", .array (issues.map describeIssue))]

/-- `validateIndexes`. -/
def validateIndexes
    (server : Server)
    (command : CommandEnvelope) : Reply × Server :=
  server.check (requireNamespace command) fun space =>
    server.onCollection space (.ok (toIndexReport 0 0 [])) fun collection =>
      server.read
        (collection.validateIndexes.map
          (toIndexReport collection.indexes.size collection.documents.size))

/-- `insertOne`. -/
def insertOne
    (server : Server)
    (command : CommandEnvelope)
    (moment : Moment) : Reply × Server :=
  let checked := do
    let space ← requireNamespace command
    let document ← requireDocumentParameter "document" command.parameters
    return (space, document)
  server.check checked fun (space, document) =>
    server.onCreated space fun server collection =>
      server.write space (collection.insertOne (moment.generated 0) document)
        fun id => [acknowledged, (utf16 "insertedId", .customId id)]

/-- `insertMany`. -/
def insertMany
    (server : Server)
    (command : CommandEnvelope)
    (moment : Moment) : Reply × Server :=
  let checked := do
    let space ← requireNamespace command
    let documents ←
      requireDocumentArrayParameter "documents" command.parameters
    return (space, documents)
  server.check checked fun (space, documents) =>
    server.onCreated space fun server collection =>
      server.write space (collection.insertMany moment.generated documents)
        fun insertedIds =>
          [acknowledged, numberField "insertedCount" insertedIds.length,
            (utf16 "insertedIds", .array (insertedIds.map .customId))]

/-- The answer to `findOne`. -/
def toFindOneResult (document : Option Document) : Document :=
  [(utf16 "document", (document.map .document).getD .null)]

/-- `findOne`. -/
def findOne
    (server : Server)
    (command : CommandEnvelope) : Reply × Server :=
  server.check (filterParameters command) fun (space, filter) =>
    server.onCollection space (.ok (toFindOneResult none)) fun collection =>
      server.read ((collection.findOne filter).map toFindOneResult)

/-- `cursors.open`, which throws what the generator throws. -/
def openCursor
    (server : Server)
    (cursor : ServerScan)
    (batchSize : JsNumber)
    (moment : Moment) : Except Failure Document × Server :=
  let swept := (server.cursors.sweepExpired moment.sweepTime).2
  let state : CursorState ServerScan :=
    ⟨cursor, none, false, moment.useTime⟩
  match
    thrownInBatch server.catalog.next state batchSize swept.maxBatchBytes with
  | some (error, _) =>
      (.error (.thrown error), { server with cursors := swept })
  | none =>
      let (batch, cursors) :=
        server.cursors.openCursor server.catalog.next cursor batchSize
          moment.sweepTime moment.useTime
      ((batch.map toBatchDocument).mapError .cursor,
        { server with cursors := cursors })

/-- What `find` checks. -/
structure FindCommand where
  space : Namespace
  filter : Document
  batchSize : Option JsNumber
  options : FindParameters

/-- The checks of `find`. -/
def findParameters
    (command : CommandEnvelope) :
    Except CommandExecutionError FindCommand := do
  let space ← requireNamespace command
  let filter ← requireDocumentParameter "filter" command.parameters
  let batchSize ← optionalBatchSize command.parameters
  let options ← parseFindOptions command.parameters
  return ⟨space, filter, batchSize, options⟩

/-- `find`. -/
def find
    (server : Server)
    (command : CommandEnvelope)
    (moment : Moment) : Reply × Server :=
  server.check (findParameters command) fun parameters =>
    server.onCollection parameters.space (.ok (toBatchDocument ⟨none, []⟩))
      fun _ =>
        match Collection.findWith parameters.filter parameters.options with
        | .error error => (.error (.thrown error), server)
        | .ok scan =>
            server.openCursor ⟨parameters.space, scan, none⟩
              (parameters.batchSize.getD defaultCursorBatchSize) moment

/-- `cursors.getMore`; a cursor whose generator throws stays. -/
def continueCursor
    (server : Server)
    (cursorId batchSize : JsNumber)
    (moment : Moment) : Except Failure Document × Server :=
  let swept := (server.cursors.sweepExpired moment.sweepTime).2
  let thrown := do
    let number ← positiveSafeInteger? cursorId
    let state ← swept.cursors.get? number
    let (error, state) ←
      thrownInBatch server.catalog.next
        { state with lastUsed := moment.useTime } batchSize
        swept.maxBatchBytes
    return (error, swept.cursors.set number state)
  match thrown with
  | some (error, cursors) =>
      (.error (.thrown error),
        { server with cursors := { swept with cursors := cursors } })
  | none =>
      let (batch, cursors) :=
        server.cursors.getMore server.catalog.next cursorId batchSize
          moment.sweepTime moment.useTime
      ((batch.map toBatchDocument).mapError .cursor,
        { server with cursors := cursors })

/-- `getMore`. -/
def getMore
    (server : Server)
    (command : CommandEnvelope)
    (moment : Moment) : Reply × Server :=
  let checked := do
    let cursorId ← requireCursorId command.parameters
    let batchSize ← optionalBatchSize command.parameters
    return (cursorId, batchSize)
  server.check checked fun (cursorId, batchSize) =>
    let (result, server) :=
      server.continueCursor cursorId
        (batchSize.getD defaultCursorBatchSize) moment
    (result.mapError translateCursor, server)

/-- `closeCursor`. -/
def closeCursor
    (server : Server)
    (command : CommandEnvelope) : Reply × Server :=
  server.check (requireCursorId command.parameters) fun cursorId =>
    let (closed, cursors) := server.cursors.close cursorId
    ((closed.map fun closed => [(utf16 "closed", .boolean closed)]).mapError
        fun error => .rethrown (.cursor error),
      { server with cursors := cursors })

/-- `dispatch` of a known command. -/
def perform
    (server : Server)
    (command : CommandEnvelope)
    (moment : Moment) : ServerCommand → Reply × Server
  | .serverInfo => (.ok serverInfo, server)
  | .listDatabases => (.ok server.listDatabases, server)
  | .createCollection => server.createCollection command
  | .listCollections => server.listCollections command
  | .insertOne => server.insertOne command moment
  | .insertMany => server.insertMany command moment
  | .findOne => server.findOne command
  | .deleteOne => server.deleteDocuments command false
  | .deleteMany => server.deleteDocuments command true
  | .replaceOne => server.replaceOne command moment
  | .updateOne => server.updateDocuments command moment false
  | .updateMany => server.updateDocuments command moment true
  | .find => server.find command moment
  | .getMore => server.getMore command moment
  | .closeCursor => server.closeCursor command
  | .createIndex => server.createIndex command
  | .dropIndex => server.dropIndex command
  | .listIndexes => server.listIndexes command
  | .explain => server.explain command
  | .validateIndexes => server.validateIndexes command

/-- `dispatch`. -/
def dispatch
    (server : Server)
    (command : CommandEnvelope)
    (moment : Moment) : Reply × Server :=
  match ServerCommand.ofName? command.command with
  | some known => server.perform command moment known
  | none =>
      (.error (.command
        ⟨.unknownCommand,
          utf16 "Unknown command " ++ Json.quote command.command ++ utf16 ".",
          some [textField "command" command.command]⟩),
        server)

end Server

end SinterDb
