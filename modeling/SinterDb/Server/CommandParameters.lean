import SinterDb.Server.Catalog

namespace SinterDb

open Unicode

/-!
# The parameters and the errors of commands

Every command checks its parameters before it looks at the catalog.  What the
catalog and the collections throw is translated for the client; errors of other
classes pass through.
-/

/-- The codes of `WireErrorCode` that commands use; they name the error too. -/
inductive WireErrorCode where
  | invalidRequest
  | unknownCommand
  | namespaceConflict
  | documentValidationFailed
  | duplicateKey
  | invalidUpdate
  | immutableId
  | cursorNotFound
  | invalidIndex
  | indexNotFound
  | indexConflict
  | internalError
  deriving Repr, DecidableEq

/-- `CommandExecutionError`; no command sets the flag for a retry. -/
structure CommandExecutionError where
  code : WireErrorCode
  message : JsString
  details : Option Document := none
  deriving DecidableEq

/-- `CommandEnvelope`. -/
structure CommandEnvelope where
  command : JsString
  database : Option JsString
  parameters : Document

/-- The text of a `StorageErrorCode`. -/
def StorageErrorCode.text : StorageErrorCode → JsString
  | .invalidDocument => utf16 "INVALID_DOCUMENT"
  | .invalidDocumentId => utf16 "INVALID_DOCUMENT_ID"
  | .invalidFilter => utf16 "INVALID_FILTER"
  | .invalidFindOptions => utf16 "INVALID_FIND_OPTIONS"
  | .invalidBatch => utf16 "INVALID_BATCH"
  | .invalidUpdate => utf16 "INVALID_UPDATE"
  | .immutableId => utf16 "IMMUTABLE_ID"
  | .duplicateId => utf16 "DUPLICATE_ID"
  | .corruption => utf16 "CORRUPTION"
  | .io => utf16 "IO_ERROR"
  | .diskFull => utf16 "DISK_FULL"
  | .permissionDenied => utf16 "PERMISSION_DENIED"
  | .closed => utf16 "CLOSED"
  | .locked => utf16 "LOCKED"
  | .duplicateKey => utf16 "DUPLICATE_KEY"
  | .invalidIndex => utf16 "INVALID_INDEX"
  | .indexNotFound => utf16 "INDEX_NOT_FOUND"
  | .indexConflict => utf16 "INDEX_CONFLICT"
  | .unsupportedFormat => utf16 "UNSUPPORTED_FORMAT"
  | .invalidBackup => utf16 "INVALID_BACKUP"

/-- A field of an answer or of the details of an error that is a text. -/
def textField (name : String) (text : JsString) : JsString × DocumentValue :=
  (utf16 name, .string text)

/-- A field of an answer or of the details of an error that is a number. -/
def numberField (name : String) (value : Int) : JsString × DocumentValue :=
  (utf16 name, .number (.ofInt value))

/-- `translateCatalogError`. -/
def translateCatalogError (error : CatalogError) : CommandExecutionError :=
  match error.code with
  | .namespaceConflict => ⟨.namespaceConflict, error.message, none⟩
  | code =>
      ⟨.invalidRequest, error.message,
        some [textField "catalogErrorCode" code.text]⟩

/-- The details that a failed `insertMany` adds. -/
def batchDetails (error : StorageError) : Document :=
  match error.insertMany with
  | some details =>
      [numberField "failedIndex" details.failedIndex,
        numberField "insertedCount" details.insertedIds.length,
        (utf16 "insertedIds", .array (details.insertedIds.map .customId))]
  | none => []

/-- `translateStorageError`. -/
def translateStorageError (error : StorageError) : CommandExecutionError :=
  let storageErrorCode := textField "storageErrorCode" error.code.text
  let ownId := textField "field" idField
  match error.code with
  | .duplicateId =>
      ⟨.duplicateKey, error.message,
        some (ownId :: storageErrorCode :: batchDetails error)⟩
  | .duplicateKey =>
      ⟨.duplicateKey, error.message,
        some (storageErrorCode :: batchDetails error)⟩
  | .invalidIndex =>
      ⟨.invalidIndex, error.message, some [storageErrorCode]⟩
  | .indexNotFound =>
      ⟨.indexNotFound, error.message, some [storageErrorCode]⟩
  | .indexConflict =>
      ⟨.indexConflict, error.message, some [storageErrorCode]⟩
  | .invalidUpdate =>
      ⟨.invalidUpdate, error.message, some [storageErrorCode]⟩
  | .immutableId =>
      ⟨.immutableId, error.message, some [ownId, storageErrorCode]⟩
  | .diskFull =>
      ⟨.internalError,
        utf16 ("The server's disk is full, so the operation was not " ++
          "applied. Free space on the server and try again."),
        some [storageErrorCode]⟩
  | .permissionDenied =>
      ⟨.internalError,
        utf16 ("The server is not allowed to write to its data directory, " ++
          "so the operation was not applied."),
        some [storageErrorCode]⟩
  | .io | .closed | .corruption | .locked | .unsupportedFormat =>
      ⟨.internalError,
        utf16 ("The server could not persist the operation. Its outcome is " ++
          "unknown."),
        some [storageErrorCode]⟩
  | .invalidDocument | .invalidDocumentId | .invalidFilter
  | .invalidFindOptions | .invalidBatch | .invalidBackup =>
      ⟨.documentValidationFailed, error.message,
        some (storageErrorCode :: batchDetails error)⟩

/-- What `dispatch` throws. -/
inductive DispatchError where
  | command (error : CommandExecutionError)
  | rethrown (error : Failure)
  deriving DecidableEq

/-- What a command makes of what it catches. -/
def translate : Failure → DispatchError
  | .catalog error => .command (translateCatalogError error)
  | .thrown (.storage error) => .command (translateStorageError error)
  | error => .rethrown error

/-- `translate` of the commands that only call the catalog. -/
def translateCatalog : Failure → DispatchError
  | .catalog error => .command (translateCatalogError error)
  | error => .rethrown error

/-- `translate` of `getMore`, which knows the error of a missing cursor. -/
def translateCursor : Failure → DispatchError
  | .cursor (.cursorNotFound cursorId) =>
      .command
        ⟨.cursorNotFound,
          utf16 (CursorError.cursorNotFound cursorId).message,
          some [numberField "cursorId" cursorId]⟩
  | error => translate error

/-- The error of a parameter with a wrong value. -/
def invalidParameter (name requirement : String) : CommandExecutionError :=
  ⟨.invalidRequest,
    utf16 (s!"Command parameter \"{name}\" must be " ++ requirement),
    some [textField "field" (utf16 name)]⟩

/-- A parameter as a test reads it; the test knows whether it may be missing. -/
def readParameter
    {α : Type}
    (name requirement : String)
    (read : Option DocumentValue → Option α)
    (parameters : Document) : Except CommandExecutionError α :=
  match read (Document.get? parameters (utf16 name)) with
  | some value => .ok value
  | none => .error (invalidParameter name requirement)

/-- A text that is more than white space. -/
def nonEmptyString? : Option DocumentValue → Option JsString
  | some (.string text) => if isBlank text then none else some text
  | _ => none

/-- A value with `isPlainDocument`. -/
def plainDocument? : DocumentValue → Option Document
  | .document fields => some fields
  | _ => none

/-- An array of documents that is not empty. -/
def documentArray? : Option DocumentValue → Option (List Document)
  | some (.array (item :: items)) => (item :: items).mapM plainDocument?
  | _ => none

/-- A boolean, false when it is missing. -/
def booleanOrFalse? : Option DocumentValue → Option Bool
  | none => some false
  | some (.boolean value) => some value
  | some _ => none

/-- A safe integer of at least so much, or nothing. -/
def optionalInteger?
    (minimum : Int) : Option DocumentValue → Option (Option JsNumber)
  | none => some none
  | some (.number number) =>
      if number.isSafeInteger = true ∧
          (number.toInt?.any fun value => decide (minimum ≤ value)) = true then
        some (some number)
      else
        none
  | some _ => none

/-- `MAX_CURSOR_BATCH_SIZE`. -/
def maxCursorBatchSize : Nat := 10000

/-- The size of a batch, or nothing. -/
def batchSize? : Option DocumentValue → Option (Option JsNumber)
  | none => some none
  | some (.number number) =>
      match positiveSafeInteger? number with
      | some value =>
          if value ≤ maxCursorBatchSize then some (some number) else none
      | none => none
  | some _ => none

/-- An array, or nothing. -/
def optionalArray? :
    Option DocumentValue → Option (Option (List DocumentValue))
  | none => some none
  | some (.array items) => some (some items)
  | some _ => none

/-- A number that is a positive safe integer. -/
def cursorNumber? : Option DocumentValue → Option JsNumber
  | some (.number number) =>
      (positiveSafeInteger? number).map fun _ => number
  | _ => none

/-- `requireStringParameter`. -/
def requireStringParameter (name : String) :
    Document → Except CommandExecutionError JsString :=
  readParameter name "a non-empty string." nonEmptyString?

/-- `requireDocumentParameter`. -/
def requireDocumentParameter (name : String) :
    Document → Except CommandExecutionError Document :=
  readParameter name "a document." fun value => value.bind plainDocument?

/-- `requireDocumentArrayParameter`. -/
def requireDocumentArrayParameter (name : String) :
    Document → Except CommandExecutionError (List Document) :=
  readParameter name "a non-empty array of documents." documentArray?

/-- `optionalBooleanParameter`. -/
def optionalBooleanParameter (name : String) :
    Document → Except CommandExecutionError Bool :=
  readParameter name "a boolean." booleanOrFalse?

/-- `optionalIntegerParameter`. -/
def optionalIntegerParameter (name : String) (minimum : Nat) :
    Document → Except CommandExecutionError (Option JsNumber) :=
  readParameter name s!"an integer of at least {minimum}."
    (optionalInteger? minimum)

/-- `optionalBatchSize`. -/
def optionalBatchSize :
    Document → Except CommandExecutionError (Option JsNumber) :=
  readParameter "batchSize"
    s!"an integer between 1 and {maxCursorBatchSize}." batchSize?

/-- `requireCursorId`. -/
def requireCursorId : Document → Except CommandExecutionError JsNumber :=
  readParameter "cursorId" "a positive integer." cursorNumber?

/-- `requireDatabase`. -/
def requireDatabase
    (command : CommandEnvelope) : Except CommandExecutionError JsString :=
  match command.database with
  | some database => .ok database
  | none =>
      .error
        ⟨.invalidRequest,
          utf16 "Command " ++ Json.quote command.command ++
            utf16 " requires a database.",
          some [textField "command" command.command,
            textField "field" (utf16 "database")]⟩

/-- A database and a collection. -/
structure Namespace where
  database : JsString
  collection : JsString
  deriving Repr, DecidableEq

/-- The collection that a command is about. -/
def requireNamespace
    (command : CommandEnvelope) : Except CommandExecutionError Namespace := do
  let database ← requireDatabase command
  let collection ← requireStringParameter "collection" command.parameters
  return ⟨database, collection⟩

/-- What `parseFindOptions` returns; the sort is any array. -/
structure FindParameters where
  sort : Option (List DocumentValue)
  skip : Option JsNumber
  limit : Option JsNumber

/-- `parseFindOptions`. -/
def parseFindOptions
    (parameters : Document) :
    Except CommandExecutionError FindParameters := do
  let skip ← optionalIntegerParameter "skip" 0 parameters
  let limit ← optionalIntegerParameter "limit" 1 parameters
  let sort ←
    readParameter "sort" "an array of [path, direction] pairs."
      optionalArray? parameters
  return ⟨sort, skip, limit⟩

/--
An entry of a sort, when it is a pair.  A path that is no text fails the check
of the empty path, and a direction that is no number the check of NaN.
-/
def sortEntry? : DocumentValue → Option SortEntry
  | .array [path, direction] =>
      let path := match path with
        | .string path => path
        | _ => []
      let direction := match direction with
        | .number direction => direction
        | _ => .nan
      some (path, direction)
  | _ => none

/-- The entries of a sort before the first one that is no pair. -/
def sortEntries : List DocumentValue → List SortEntry
  | [] => []
  | item :: rest =>
      match sortEntry? item with
      | some entry => entry :: sortEntries rest
      | none => []

/--
The sort of `find` as a list of pairs.  The entries before one that is no pair
are checked first.
-/
def sortSpecification
    (items : List DocumentValue) : Except Thrown (List SortEntry) :=
  let entries := sortEntries items
  if entries.length = items.length then
    .ok entries
  else do
    let _ ← parseSortEntries [] entries
    throw (invalidSort
      (utf16 "Each sort entry must be a [path, direction] pair."))

/-- `INDEX_OPTIONS`. -/
def indexOptions : List JsString :=
  [utf16 "field", utf16 "direction", utf16 "unique", utf16 "sparse",
    utf16 "name"]

/-- `parseIndexInput`, which only looks at the names of the options. -/
def parseIndexInput
    (index : Document) : Except CommandExecutionError Document :=
  match (index.map Prod.fst).find? fun key => !indexOptions.contains key with
  | some key =>
      .error
        ⟨.invalidRequest, utf16 "Unknown index option " ++ Json.quote key,
          some [textField "field" (utf16 "index"), textField "option" key]⟩
  | none => .ok index

/-- `readFlag`. -/
def readFlag (name : String) (index : Document) : Except Thrown Bool :=
  match booleanOrFalse? (Document.get? index (utf16 name)) with
  | some flag => .ok flag
  | none =>
      .error (invalidIndex (utf16 s!"Index option {name} must be a boolean."))

/--
The definition of an index with the types that `normalizeIndexSpec` checks.  A
direction that is no number fails the check of NaN, and a name that is no text
the check of the empty name; the flags are checked behind the direction.
-/
def indexInput (index : Document) : Except Thrown CreateIndexInput :=
  let direction :=
    match Document.get? index (utf16 "direction") with
    | none | some .null => none
    | some (.number direction) => some direction
    | some _ => some .nan
  let name :=
    match Document.get? index (utf16 "name") with
    | none | some .null => none
    | some (.string name) => some name
    | some _ => some []
  match Document.get? index (utf16 "field") with
  | some (.string field) =>
      let flags := do
        let unique ← readFlag "unique" index
        let sparse ← readFlag "sparse" index
        return (unique, sparse)
      match flags with
      | .ok (unique, sparse) =>
          .ok ⟨field, direction, some unique, some sparse, name⟩
      | .error error => do
          let _ ←
            normalizeIndexSpec ⟨field, direction, none, none, some (utf16 "n")⟩
          throw error
  | _ =>
      .error (invalidIndex
        (utf16 "An index requires a non-empty field path."))

end SinterDb
