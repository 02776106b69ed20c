import SinterDb.Engine.Manifest
import SinterDb.Engine.StorageEngine
import SinterDb.Server.CursorManager
import SinterDb.Storage.Find
import SinterDb.Wal.Format

namespace SinterDb

open Unicode

/-!
# The catalog of a server

`InMemoryCatalog`: the collections by the name of their database and their own
name.  With an engine the maps are those of the engine, which records every
write before it is made; the file operations of the engine do not fail here.
-/

/-- `CatalogErrorCode`. -/
inductive CatalogErrorCode where
  | invalidDatabaseName
  | invalidCollectionName
  | namespaceConflict
  deriving Repr, DecidableEq

/-- The text of a code. -/
def CatalogErrorCode.text : CatalogErrorCode → JsString
  | .invalidDatabaseName => utf16 "INVALID_DATABASE_NAME"
  | .invalidCollectionName => utf16 "INVALID_COLLECTION_NAME"
  | .namespaceConflict => utf16 "NAMESPACE_CONFLICT"

/-- `CatalogError`. -/
structure CatalogError where
  code : CatalogErrorCode
  message : JsString
  deriving Repr, DecidableEq

/-- What a command may catch. -/
inductive Failure where
  | catalog (error : CatalogError)
  | thrown (error : Thrown)
  | cursor (error : CursorError)
  deriving Repr, DecidableEq

/-- `MAX_NAME_BYTES`. -/
def maxNameBytes : Nat := 255

/-- `text.trim().length === 0`. -/
def isBlank (text : JsString) : Bool :=
  text.all isWhiteSpace

/-- `validateName`, with its kind as `capitalize` returns it. -/
def validateName
    (kind : String)
    (code : CatalogErrorCode)
    (name : JsString) : Except Failure Unit :=
  if isBlank name then
    .error (.catalog
      ⟨code, utf16 (kind ++ " name must be a non-empty string.")⟩)
  else if 0 ∈ name then
    .error (.catalog
      ⟨code, utf16 (kind ++ " name cannot contain a null character.")⟩)
  else if maxNameBytes < byteLength name then
    .error (.catalog
      ⟨code,
        utf16
          (kind ++ s!" name cannot be longer than {maxNameBytes} bytes.")⟩)
  else
    .ok ()

/-- `validateDatabaseName`. -/
def validateDatabaseName (name : JsString) : Except Failure Unit :=
  validateName "Database" .invalidDatabaseName name

/-- `validateCollectionName`. -/
def validateCollectionName (name : JsString) : Except Failure Unit :=
  validateName "Collection" .invalidCollectionName name

/-- Both names of a collection are valid. -/
def validateNames (database collection : JsString) : Except Failure Unit := do
  validateDatabaseName database
  validateCollectionName collection

/-- `sortNames`. -/
def sortNames (names : List JsString) : List JsString :=
  names.insertionSort fun left right => compareStrings left right ≠ .gt

/-- What the log of an engine throws for a record: the error of a broken log or
of the disk, if there is one. -/
abbrev LogErrors := List Operation → Option Thrown

/-- `append` of an engine that is open. -/
def append
    (errors : LogErrors)
    (operations : List Operation) : Except Thrown Unit :=
  match encodeOperations operations with
  | .error error => .error (tooLarge error.message)
  | .ok payload =>
      if Wal.maxRecordPayloadSize < payload.length then
        .error (tooLarge
          (utf16 "Record payload exceeds the maximum record size."))
      else
        match errors operations with
        | some error => .error error
        | none => .ok ()

/-- `InMemoryCatalog`; it is durable when it has an engine. -/
structure Catalog where
  engine : Option LogErrors
  databases : JsMap JsString CollectionMap

namespace Catalog

/-- The collection with a name, whatever the name is. -/
def lookup
    (catalog : Catalog)
    (database collection : JsString) : Option Collection :=
  (catalog.databases.get? database).bind fun collections =>
    collections.get? collection

/-- A collection under its name. -/
def register
    (catalog : Catalog)
    (database collection : JsString)
    (store : Collection) : Catalog :=
  let collections := (catalog.databases.get? database).getD .empty
  { catalog with
    databases :=
      catalog.databases.set database (collections.set collection store) }

/-- The journal of a collection; without an engine it does nothing. -/
def journal
    (catalog : Catalog)
    (operations : List Operation) : Except Thrown Unit :=
  match catalog.engine with
  | none => .ok ()
  | some errors => append errors operations

/-- `listDatabases`. -/
def listDatabases (catalog : Catalog) : List JsString :=
  sortNames catalog.databases.keys

/-- `listCollections`. -/
def listCollections
    (catalog : Catalog)
    (database : JsString) : Except Failure (List JsString) := do
  validateDatabaseName database
  return sortNames
    ((catalog.databases.get? database).elim [] JsMap.keys)

/-- `getCollection`. -/
def getCollection
    (catalog : Catalog)
    (database collection : JsString) : Except Failure (Option Collection) := do
  validateNames database collection
  return catalog.lookup database collection

/-- A collection that does not exist is recorded, and then it does. -/
def openCollection
    (catalog : Catalog)
    (database collection : JsString) : Except Failure Collection × Catalog :=
  match catalog.journal [.createCollection database collection] with
  | .error error => (.error (.thrown error), catalog)
  | .ok _ =>
      (.ok .empty, catalog.register database collection .empty)

/-- `getOrCreateCollection`. -/
def getOrCreateCollection
    (catalog : Catalog)
    (database collection : JsString) : Except Failure Collection × Catalog :=
  match validateNames database collection with
  | .error error => (.error error, catalog)
  | .ok _ =>
      match catalog.lookup database collection with
      | some existing => (.ok existing, catalog)
      | none => catalog.openCollection database collection

/-- `createCollection`. -/
def createCollection
    (catalog : Catalog)
    (database collection : JsString) : Except Failure Unit × Catalog :=
  match validateNames database collection with
  | .error error => (.error error, catalog)
  | .ok _ =>
      match catalog.lookup database collection with
      | some _ =>
          (.error (.catalog
            ⟨.namespaceConflict,
              utf16 "Collection " ++
                Json.quote (database ++ utf16 "." ++ collection) ++
                utf16 " already exists."⟩),
            catalog)
      | none =>
          let (created, catalog) := catalog.openCollection database collection
          (created.map fun _ => (), catalog)

/-- A write of a collection, with the journal that the catalog gives it. -/
def perform
    {α : Type}
    (catalog : Catalog)
    (database collection : JsString)
    (write : Write α) : Except Thrown α × Catalog :=
  let answer :=
    match write with
    | .done _ _ => .ok ()
    | .commit _ operations _ =>
        catalog.journal (operations.map (toOperation database collection))
  let (store, result) := write.run answer
  (result, catalog.register database collection store)

end Catalog

end SinterDb
