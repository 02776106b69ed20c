import SinterDb.Server.CommandDispatcher

namespace SinterDb

open Unicode

/-!
# What a command does to the list of collections

No command removes a collection.  A command creates the one that it names
before the storage has looked at its parameters, so it is created whatever the
command then answers.
-/

namespace Catalog

/-- The names of the databases, and of the collections of each. -/
def names (catalog : Catalog) : List JsString × (JsString → List JsString) :=
  (catalog.databases.keys, fun database =>
    (catalog.databases.get? database).elim [] JsMap.keys)

/-- `listDatabases` and `listCollections` answer as before. -/
structure ListsSame (catalog later : Catalog) : Prop where
  databases : later.listDatabases = catalog.listDatabases
  collections :
    ∀ database,
      later.listCollections database = catalog.listCollections database

section Names

variable
  {catalog later : Catalog}
  {database collection : JsString}

/-- The lists only show the names. -/
theorem ListsSame.of_names
    (same : later.names = catalog.names) :
    ListsSame catalog later := by
  have databases := congrArg Prod.fst same
  have collections := congrArg Prod.snd same
  constructor
  · exact congrArg sortNames databases
  · intro database
    have inside := congrFun collections database
    unfold names at inside
    dsimp only at inside
    unfold listCollections
    rw [inside]

/-- A collection that is found has its name in the list. -/
theorem mem_names_of_lookup
    {store : Collection}
    (found : catalog.lookup database collection = some store) :
    database ∈ catalog.databases.keys ∧
      collection ∈ catalog.names.2 database := by
  unfold lookup at found
  cases isDatabase : catalog.databases.get? database with
  | none =>
      rw [isDatabase] at found
      cases found
  | some collections =>
      rw [isDatabase, Option.bind_some] at found
      constructor
      · by_contra absent
        rw [JsMap.get?_eq_none.mpr absent] at isDatabase
        cases isDatabase
      · unfold names
        dsimp only
        rw [isDatabase, Option.elim_some]
        by_contra absent
        rw [JsMap.get?_eq_none.mpr absent] at found
        cases found

/-- A collection that is not found has no name in the list. -/
theorem not_mem_names_of_lookup
    (absent : catalog.lookup database collection = none) :
    collection ∉ catalog.names.2 database := by
  unfold lookup at absent
  unfold names
  dsimp only
  cases isDatabase : catalog.databases.get? database with
  | none =>
      exact List.not_mem_nil
  | some collections =>
      rw [isDatabase, Option.bind_some] at absent
      exact JsMap.get?_eq_none.mp absent

/-- A collection that was registered is found. -/
theorem lookup_register
    (catalog : Catalog)
    (database collection : JsString)
    (store : Collection) :
    (catalog.register database collection store).lookup database collection =
      some store := by
  unfold lookup register
  dsimp only
  rw [JsMap.get?_set, if_pos rfl, Option.bind_some, JsMap.get?_set,
    if_pos rfl]

/-- A collection that is there may be registered again. -/
theorem names_register
    {before : Collection}
    (found : catalog.lookup database collection = some before)
    (store : Collection) :
    (catalog.register database collection store).names = catalog.names := by
  have isThere := mem_names_of_lookup found
  unfold names register
  dsimp only
  rw [JsMap.keys_set_of_mem isThere.1]
  refine Prod.ext rfl (funext fun other => ?_)
  dsimp only
  rw [JsMap.get?_set]
  split_ifs with isSame
  · rw [isSame]
    have inside := isThere.2
    unfold names at inside
    dsimp only at inside
    cases isDatabase : catalog.databases.get? database with
    | none =>
        rw [isDatabase] at inside
        cases inside
    | some collections =>
        rw [isDatabase, Option.elim_some] at inside
        rw [Option.getD_some, Option.elim_some, Option.elim_some,
          JsMap.keys_set_of_mem inside]
  · rfl

/-- A collection that was created is listed where it was not. -/
theorem not_listsSame_of_created
    (isValid : validateNames database collection = .ok ())
    (absent : catalog.lookup database collection = none)
    {store : Collection}
    (created :
      later.names = (catalog.register database collection store).names) :
    ¬ ListsSame catalog later := by
  intro same
  have isDatabase : validateDatabaseName database = .ok () := by
    rcases Result.bind_eq_ok.mp isValid with ⟨⟨⟩, isDatabase, -⟩
    exact isDatabase
  have lists := same.collections database
  unfold listCollections at lists
  rw [isDatabase, Result.ok_bind, Result.ok_bind] at lists
  have sorted :
      sortNames (later.names.2 database) =
        sortNames (catalog.names.2 database) :=
    Except.ok.inj lists
  have isNew : collection ∈ later.names.2 database := by
    rw [created]
    exact (mem_names_of_lookup (lookup_register _ _ _ store)).2
  have isOld : collection ∈ sortNames (catalog.names.2 database) := by
    rw [← sorted]
    exact (List.mem_insertionSort _).mpr isNew
  exact not_mem_names_of_lookup absent
    ((List.mem_insertionSort _).mp isOld)

end Names

end Catalog

namespace Server

/-- The collection that a command creates when it is missing: its own checks
have passed, and the storage has not been asked. -/
def created (command : CommandEnvelope) : ServerCommand → Option Namespace
  | .createCollection =>
      (do
        let database ← requireDatabase command
        let collection ← requireStringParameter "name" command.parameters
        return (⟨database, collection⟩ : Namespace)).toOption
  | .insertOne =>
      (do
        let space ← requireNamespace command
        let _ ← requireDocumentParameter "document" command.parameters
        return space).toOption
  | .insertMany =>
      (do
        let space ← requireNamespace command
        let _ ← requireDocumentArrayParameter "documents" command.parameters
        return space).toOption
  | .replaceOne =>
      (updateParameters "replacement" command).toOption.bind fun parameters =>
        if parameters.upsert then some parameters.space else none
  | .updateOne | .updateMany =>
      (updateParameters "update" command).toOption.bind fun parameters =>
        if parameters.upsert then some parameters.space else none
  | .createIndex =>
      (do
        let space ← requireNamespace command
        let index ← requireDocumentParameter "index" command.parameters
        let index ← parseIndexInput index
        return (space, index)).toOption.bind fun (space, index) =>
          (do
            let input ← indexInput index
            let _ ← normalizeIndexSpec input
            return space).toOption
  | _ => none

/-- A collection is missing, and the catalog can create it. -/
structure CanCreate (server : Server) (space : Namespace) : Prop where
  valid : validateNames space.database space.collection = .ok ()
  absent : server.catalog.lookup space.database space.collection = none
  recorded :
    server.catalog.journal
      [.createCollection space.database space.collection] = .ok ()

/-- The catalog behind a command: it lists the same, or the created collection
as well. -/
def Settles (server later : Server) (space : Option Namespace) : Prop :=
  (∃ created ∈ space, server.CanCreate created ∧
      ∃ store,
        later.catalog.names =
          (server.catalog.register created.database created.collection
            store).names) ∨
    later.catalog.names = server.catalog.names ∧
      ∀ created ∈ space, ¬ server.CanCreate created

section Settling

variable
  {server : Server}
  {space : Namespace}

/-- Nothing was created. -/
theorem Settles.none
    {later : Server}
    (same : later.catalog.names = server.catalog.names) :
    Settles server later none :=
  .inr ⟨same, fun _ isCreated => by cases isCreated⟩

/-- A write of a collection that is there changes no name. -/
theorem names_write
    {α : Type}
    {store : Collection}
    (found :
      server.catalog.lookup space.database space.collection = some store)
    (write : Write α)
    (reply : α → Document) :
    (server.write space write reply).2.catalog.names =
      server.catalog.names :=
  Catalog.names_register found _

/-- A command on a collection that may be missing creates none. -/
theorem names_onCollection
    {missing : Except Thrown Document}
    {present : Collection → Except Failure Document × Server}
    (keeps :
      ∀ store,
        server.catalog.lookup space.database space.collection = some store →
          (present store).2.catalog.names = server.catalog.names) :
    (server.onCollection space missing present).2.catalog.names =
      server.catalog.names := by
  unfold onCollection catching Catalog.getCollection
  cases validateNames space.database space.collection with
  | error error =>
      rfl
  | ok valid =>
      rw [Result.ok_bind]
      cases found :
          server.catalog.lookup space.database space.collection with
      | none =>
          rfl
      | some store =>
          exact keeps store found

/-- A command on a collection that it creates. -/
theorem settles_onCreated
    {present : Server → Collection → Except Failure Document × Server}
    (keeps :
      ∀ later store,
        later.catalog.lookup space.database space.collection = some store →
          (present later store).2.catalog.names = later.catalog.names) :
    Settles server (server.onCreated space present).2 (some space) := by
  unfold onCreated catching Catalog.getOrCreateCollection
  cases isValid : validateNames space.database space.collection with
  | error error =>
      refine .inr ⟨rfl, ?_⟩
      rintro created ⟨⟩ canCreate
      cases isValid.symm.trans canCreate.valid
  | ok valid =>
      dsimp only
      cases found :
          server.catalog.lookup space.database space.collection with
      | some store =>
          refine .inr ⟨keeps _ store found, ?_⟩
          rintro created ⟨⟩ canCreate
          cases found.symm.trans canCreate.absent
      | none =>
          dsimp only
          unfold Catalog.openCollection
          cases recorded :
              server.catalog.journal
                [.createCollection space.database space.collection] with
          | error error =>
              refine .inr ⟨rfl, ?_⟩
              rintro created ⟨⟩ canCreate
              cases recorded.symm.trans canCreate.recorded
          | ok answer =>
              exact .inl ⟨space, rfl, ⟨isValid, found, recorded⟩, .empty,
                keeps _ _ (Catalog.lookup_register _ _ _ _)⟩

/-- The catalog is not touched by a cursor. -/
theorem catalog_openCursor
    (cursor : ServerScan)
    (batchSize : JsNumber)
    (moment : Moment) :
    (server.openCursor cursor batchSize moment).2.catalog =
      server.catalog := by
  unfold openCursor
  dsimp only
  split <;> rfl

/-- The catalog is not touched by a cursor that goes on. -/
theorem catalog_continueCursor
    (cursorId batchSize : JsNumber)
    (moment : Moment) :
    (server.continueCursor cursorId batchSize moment).2.catalog =
      server.catalog := by
  unfold continueCursor
  dsimp only
  split <;> rfl

section Commands

variable
  {command : CommandEnvelope}
  {moment : Moment}

/-- `createCollection` creates its collection. -/
theorem settles_createCollection :
    Settles server (server.createCollection command).2
      (created command .createCollection) := by
  unfold createCollection created
  dsimp only
  cases requireDatabase command with
  | error error =>
      exact .none rfl
  | ok database =>
      cases requireStringParameter "name" command.parameters with
      | error error =>
          exact .none rfl
      | ok collection =>
          change Settles server
            (check server (.ok (⟨database, collection⟩ : Namespace)) _).2
            (some ⟨database, collection⟩)
          unfold check catchingCatalog Catalog.createCollection
          dsimp only
          cases isValid : validateNames database collection with
          | error error =>
              refine .inr ⟨rfl, ?_⟩
              rintro created ⟨⟩ canCreate
              cases isValid.symm.trans canCreate.valid
          | ok valid =>
              dsimp only
              cases found : server.catalog.lookup database collection with
              | some store =>
                  refine .inr ⟨rfl, ?_⟩
                  rintro created ⟨⟩ canCreate
                  cases found.symm.trans canCreate.absent
              | none =>
                  unfold Catalog.openCollection
                  dsimp only
                  cases recorded :
                      server.catalog.journal
                        [.createCollection database collection] with
                  | error error =>
                      refine .inr ⟨rfl, ?_⟩
                      rintro created ⟨⟩ canCreate
                      cases recorded.symm.trans canCreate.recorded
                  | ok answer =>
                      exact .inl ⟨⟨database, collection⟩, rfl,
                        ⟨isValid, found, recorded⟩, .empty, rfl⟩

/-- `insertOne` creates its collection. -/
theorem settles_insertOne :
    Settles server (server.insertOne command moment).2
      (created command .insertOne) := by
  unfold insertOne created
  dsimp only
  cases requireNamespace command with
  | error error =>
      exact .none rfl
  | ok space =>
      cases requireDocumentParameter "document" command.parameters with
      | error error =>
          exact .none rfl
      | ok document =>
          change Settles server
            (server.onCreated space fun server collection =>
              server.write space
                (collection.insertOne (moment.generated 0) document)
                fun id =>
                  [acknowledged, (utf16 "insertedId", .customId id)]).2
            (some space)
          refine settles_onCreated ?_
          intro later store found
          exact names_write found _ _

/-- `insertMany` creates its collection. -/
theorem settles_insertMany :
    Settles server (server.insertMany command moment).2
      (created command .insertMany) := by
  unfold insertMany created
  dsimp only
  cases requireNamespace command with
  | error error =>
      exact .none rfl
  | ok space =>
      cases requireDocumentArrayParameter "documents"
          command.parameters with
      | error error =>
          exact .none rfl
      | ok documents =>
          change Settles server
            (server.onCreated space fun server collection =>
              server.write space
                (collection.insertMany moment.generated documents)
                fun insertedIds =>
                  [acknowledged,
                    numberField "insertedCount" insertedIds.length,
                    (utf16 "insertedIds",
                      .array (insertedIds.map .customId))]).2
            (some space)
          refine settles_onCreated ?_
          intro later store found
          exact names_write found _ _

/-- A change creates its collection for an upsert. -/
theorem settles_changeDocuments
    (parameters : UpdateParameters)
    (missing : Except Thrown Unit)
    (change : Collection → Write StorageUpdateResult) :
    Settles server (server.changeDocuments parameters missing change).2
      (if parameters.upsert then some parameters.space else none) := by
  unfold changeDocuments
  cases parameters.upsert with
  | true =>
      rw [if_pos rfl, if_pos rfl]
      refine settles_onCreated ?_
      intro later store found
      exact names_write found _ _
  | false =>
      rw [if_neg Bool.false_ne_true, if_neg Bool.false_ne_true]
      refine .none (names_onCollection ?_)
      intro store found
      exact names_write found _ _

/-- `replaceOne` creates its collection for an upsert. -/
theorem settles_replaceOne :
    Settles server (server.replaceOne command moment).2
      (created command .replaceOne) := by
  unfold replaceOne created
  cases updateParameters "replacement" command with
  | error error =>
      exact .none rfl
  | ok parameters =>
      exact settles_changeDocuments parameters _ _

/-- `updateOne` and `updateMany` create their collection for an upsert. -/
theorem settles_updateDocuments
    (many : Bool) :
    Settles server (server.updateDocuments command moment many).2
      (created command .updateOne) := by
  unfold updateDocuments created
  cases updateParameters "update" command with
  | error error =>
      exact .none rfl
  | ok parameters =>
      exact settles_changeDocuments parameters _ _

/-- `createIndex` creates its collection when its definition is one. -/
theorem settles_createIndex :
    Settles server (server.createIndex command).2
      (created command .createIndex) := by
  unfold createIndex created
  dsimp only
  cases requireNamespace command with
  | error error =>
      exact .none rfl
  | ok space =>
      cases requireDocumentParameter "index" command.parameters with
      | error error =>
          exact .none rfl
      | ok index =>
          simp only [Result.ok_bind]
          cases parseIndexInput index with
          | error error =>
              exact .none rfl
          | ok index =>
              simp only [check, pure, Except.pure, Except.toOption,
                Result.ok_bind, Option.bind_some]
              cases indexInput index with
              | error error =>
                  simp only [Result.error_bind]
                  exact .none rfl
              | ok input =>
                  simp only [Result.ok_bind]
                  cases normalizeIndexSpec input with
                  | error error =>
                      simp only [Result.error_bind]
                      exact .none rfl
                  | ok spec =>
                      simp only [Result.ok_bind]
                      refine settles_onCreated ?_
                      intro later store found
                      exact names_write found _ _

/-- A command whose checks are passed, or not. -/
theorem names_check
    {α : Type}
    {checked : Except CommandExecutionError α}
    {next : α → Reply × Server}
    (keeps :
      ∀ value, (next value).2.catalog.names = server.catalog.names) :
    (server.check checked next).2.catalog.names = server.catalog.names := by
  cases checked with
  | error error => rfl
  | ok value => exact keeps value

/-- `deleteOne` and `deleteMany` create nothing. -/
theorem names_deleteDocuments
    (many : Bool) :
    (server.deleteDocuments command many).2.catalog.names =
      server.catalog.names := by
  refine names_check ?_
  rintro ⟨space, filter⟩
  refine names_onCollection ?_
  intro store found
  exact names_write found _ _

/-- `find` creates nothing. -/
theorem names_find :
    (server.find command moment).2.catalog.names =
      server.catalog.names := by
  refine names_check ?_
  intro parameters
  refine names_onCollection ?_
  intro store found
  cases Collection.findWith parameters.filter parameters.options with
  | error error =>
      rfl
  | ok scan =>
      exact congrArg Catalog.names (catalog_openCursor _ _ _)

/-- `getMore` creates nothing. -/
theorem names_getMore :
    (server.getMore command moment).2.catalog.names =
      server.catalog.names := by
  refine names_check ?_
  rintro ⟨cursorId, batchSize⟩
  exact congrArg Catalog.names (catalog_continueCursor _ _ _)

/-- `dropIndex` creates nothing. -/
theorem names_dropIndex :
    (server.dropIndex command).2.catalog.names = server.catalog.names := by
  refine names_check ?_
  rintro ⟨space, name⟩
  refine names_onCollection ?_
  intro store found
  exact names_write found _ _

/-- Every command settles for the collection that it creates. -/
theorem settles_perform
    (known : ServerCommand) :
    Settles server (server.perform command moment known).2
      (created command known) := by
  cases known with
  | serverInfo => exact .none rfl
  | listDatabases => exact .none rfl
  | createCollection => exact settles_createCollection
  | listCollections => exact .none (names_check fun database => rfl)
  | insertOne => exact settles_insertOne
  | insertMany => exact settles_insertMany
  | deleteOne => exact .none (names_deleteDocuments false)
  | deleteMany => exact .none (names_deleteDocuments true)
  | replaceOne => exact settles_replaceOne
  | updateOne => exact settles_updateDocuments false
  | updateMany => exact settles_updateDocuments true
  | findOne =>
      exact .none (names_check fun checked =>
        names_onCollection fun store found => rfl)
  | find => exact .none names_find
  | getMore => exact .none names_getMore
  | closeCursor => exact .none (names_check fun cursorId => rfl)
  | createIndex => exact settles_createIndex
  | dropIndex => exact .none names_dropIndex
  | listIndexes =>
      exact .none (names_check fun checked =>
        names_onCollection fun store found => rfl)
  | explain =>
      exact .none (names_check fun checked =>
        names_onCollection fun store found => rfl)
  | validateIndexes =>
      exact .none (names_check fun checked =>
        names_onCollection fun store found => rfl)

end Commands

end Settling

/-- The collection that a command creates, whatever its name is. -/
def createdBy (command : CommandEnvelope) : Option Namespace :=
  (ServerCommand.ofName? command.command).bind (created command)

/--
Whatever a command answers, `listDatabases` and `listCollections` answer behind
it as before it exactly when it did not name a missing collection that it
creates and that can be created.
-/
theorem lists_same_iff
    (server : Server)
    (command : CommandEnvelope)
    (moment : Moment) :
    Catalog.ListsSame server.catalog
        (server.dispatch command moment).2.catalog ↔
      ∀ space, createdBy command = some space → ¬ server.CanCreate space := by
  have settles :
      Settles server (server.dispatch command moment).2
        (createdBy command) := by
    unfold dispatch createdBy
    cases ServerCommand.ofName? command.command with
    | none => exact .none rfl
    | some known => exact settles_perform known
  rcases settles with ⟨space, isCreated, canCreate, store, names⟩ |
    ⟨names, nothing⟩
  · refine iff_of_false ?_ fun none => none space isCreated canCreate
    exact Catalog.not_listsSame_of_created canCreate.valid canCreate.absent
      names
  · exact iff_of_true (.of_names names) nothing

end Server

end SinterDb
