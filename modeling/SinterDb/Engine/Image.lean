import SinterDb.Engine.EngineRecovery
import SinterDb.Storage.Reopening

namespace SinterDb

open Unicode

/-!
# What an engine keeps

The databases of an engine as tables of what is kept of their collections.  The
operations of a record change these tables in the same way while they are made
and when they are replayed, and a snapshot is such a table, too.
-/

/-- What is kept of all databases. -/
abbrev Image := List (JsString × List (JsString × StoreImage))

/-- What an operation does inside of its collection; creating one does
nothing there. -/
def Operation.inStore : Operation → Option JournalOperation
  | .createCollection _ _ => none
  | .put _ _ id document => some (.put (hexString id) document)
  | .delete _ _ id => some (.delete (hexString id))
  | .createIndex _ _ index => some (.createIndex index)
  | .dropIndex _ _ name => some (.dropIndex name)

namespace Image

/-- What is kept of a collection. -/
def store?
    (image : Image)
    (database collection : JsString) : Option StoreImage :=
  OrderedTable.findIn? image database collection

/-- A collection and what is kept of it. -/
def putStore
    (image : Image)
    (database collection : JsString)
    (store : StoreImage) : Image :=
  OrderedTable.putIn image database collection store

/-- An operation.  A collection may be created again, and every other
operation needs its collection. -/
def apply (image : Image) (operation : Operation) : Option Image :=
  match operation.inStore,
      image.store? operation.database operation.collection with
  | none, none =>
      some (image.putStore operation.database operation.collection .empty)
  | none, some _ => some image
  | some _, none => none
  | some inStore, some store =>
      (store.apply inStore).map
        (image.putStore operation.database operation.collection)

/-- The operations of a record. -/
def applyRecord (image : Image) (operations : List Operation) : Option Image :=
  Journal.replay apply image operations

end Image

/-- What is kept of a recovered collection. -/
def RecoveredState.image (state : RecoveredState) : StoreImage :=
  ⟨state.documents.entries, state.indexes⟩

/-- What is kept of recovered databases. -/
def Recovered.image (recovered : Recovered) : Image :=
  OrderedTable.mapValues
    (fun collections =>
      OrderedTable.mapValues RecoveredState.image collections.entries)
    recovered.entries

/-- What is kept of the databases of an engine. -/
def StorageEngine.image (engine : StorageEngine) : Image :=
  OrderedTable.mapValues
    (fun collections =>
      OrderedTable.mapValues Collection.image collections.entries)
    engine.databases.entries

section Views

variable
  {ν μ : Type}

/-- Two levels of maps as tables of what is seen of their values. -/
def viewMaps
    (view : ν → μ)
    (maps : JsMap JsString (JsMap JsString ν)) :
    List (JsString × List (JsString × μ)) :=
  OrderedTable.mapValues
    (fun map => OrderedTable.mapValues view map.entries) maps.entries

/-- What is found in a view. -/
theorem findIn?_viewMaps
    (view : ν → μ)
    (maps : JsMap JsString (JsMap JsString ν))
    (outer inner : JsString) :
    OrderedTable.findIn? (viewMaps view maps) outer inner =
      ((maps.get? outer).bind fun map => map.get? inner).map view := by
  unfold OrderedTable.findIn? viewMaps
  rw [OrderedTable.find?_mapValues, OrderedTable.get?_eq_find?]
  cases OrderedTable.find? maps.entries outer with
  | none =>
      rfl
  | some map =>
      exact OrderedTable.find?_mapValues view map.entries inner

/-- The view of maps in which a value was set. -/
theorem viewMaps_set
    (view : ν → μ)
    (maps : JsMap JsString (JsMap JsString ν))
    (outer inner : JsString)
    (value : ν) :
    viewMaps view
        (maps.set outer (((maps.get? outer).getD .empty).set inner value)) =
      OrderedTable.putIn (viewMaps view maps) outer inner (view value) := by
  unfold viewMaps OrderedTable.putIn
  rw [OrderedTable.entries_set, OrderedTable.mapValues_put,
    OrderedTable.entries_set, OrderedTable.mapValues_put,
    OrderedTable.find?_mapValues, ← OrderedTable.get?_eq_find?]
  cases maps.get? outer <;> rfl

/-- Two levels of maps have distinct keys, and are proper when no map is
empty. -/
theorem proper_viewMaps
    (view : ν → μ)
    {maps : JsMap JsString (JsMap JsString ν)}
    (nonempty : ∀ entry ∈ maps.entries, entry.2.entries ≠ []) :
    OrderedTable.Proper (viewMaps view maps) where
  distinct := by
    rw [viewMaps, OrderedTable.keys_mapValues]
    exact maps.nodup_keys
  nonempty entry member := by
    rcases List.mem_map.mp member with ⟨old, inMaps, rfl⟩
    have isNonempty := nonempty old inMaps
    simpa [OrderedTable.mapValues] using isNonempty
  inside entry member := by
    rcases List.mem_map.mp member with ⟨old, inMaps, rfl⟩
    rw [OrderedTable.keys_mapValues]
    exact old.2.nodup_keys

end Views

namespace Recovered

variable
  {recovered : Recovered}

/-- What is kept of a collection is that of its state. -/
theorem store?_image
    (recovered : Recovered)
    (database collection : JsString) :
    recovered.image.store? database collection =
      (recovered.state? database collection).map RecoveredState.image :=
  findIn?_viewMaps _ _ _ _

/-- The image with the state of a collection. -/
theorem image_setState
    (recovered : Recovered)
    (database collection : JsString)
    (state : RecoveredState) :
    (recovered.setState database collection state).image =
      recovered.image.putStore database collection state.image :=
  viewMaps_set _ _ _ _ _

/-- Replaying an operation in a collection. -/
theorem applyToState_ok
    {root : JsString}
    {lsn : Nat}
    {state : RecoveredState}
    {operation : Operation}
    {inStore : JournalOperation}
    {store : StoreImage}
    (isInStore : operation.inStore = some inStore)
    (applies : state.image.apply inStore = some store) :
    ∃ next, applyToState root lsn state operation = .ok next ∧
      next.image = store := by
  cases operation with
  | createCollection database collection =>
      cases isInStore
  | put database collection id document =>
      cases isInStore
      cases applies
      refine ⟨_, rfl, ?_⟩
      simp only [RecoveredState.image, OrderedTable.entries_set]
  | delete database collection id =>
      cases isInStore
      cases applies
      refine ⟨_, rfl, ?_⟩
      simp only [RecoveredState.image, OrderedTable.remove,
        JsMap.entries_delete]
  | createIndex database collection index =>
      cases isInStore
      unfold StoreImage.apply at applies
      simp only [RecoveredState.image] at applies
      cases found : state.indexes.find? fun other =>
          other.name = index.name with
      | none =>
          simp only [found] at applies
          refine ⟨{ state with indexes := state.indexes ++ [index] }, ?_,
            Option.some.inj applies⟩
          simp only [applyToState, found]
      | some existing =>
          simp only [found] at applies
          split_ifs at applies with same
          refine ⟨state, ?_, Option.some.inj applies⟩
          simp only [applyToState, found, same, if_true]
  | dropIndex database collection name =>
      cases isInStore
      unfold StoreImage.apply at applies
      by_cases present :
          (state.indexes.any fun other => other.name = name) = true
      · have inImage :
            (state.image.indexes.any fun other => other.name = name) = true :=
          present
        simp only [inImage, if_true] at applies
        refine ⟨{ state with
            indexes := state.indexes.eraseP fun other => other.name = name },
          ?_, Option.some.inj applies⟩
        simp only [applyToState, present, if_true]
      · have notInImage :
            ¬ (state.image.indexes.any fun other => other.name = name) =
              true :=
          present
        simp only [notInImage] at applies
        cases applies

/-- Replaying an operation does to the image what the operation does. -/
theorem applyRecovered_ok
    {root : JsString}
    {lsn : Nat}
    {operation : Operation}
    {image : Image}
    (applies : recovered.image.apply operation = some image) :
    ∃ next, applyRecovered root lsn recovered operation = .ok next ∧
      next.image = image := by
  unfold Image.apply at applies
  rw [store?_image] at applies
  cases isState :
      recovered.state? operation.database operation.collection with
  | none =>
      rw [isState] at applies
      cases operation with
      | createCollection database collection =>
          cases applies
          refine ⟨recovered.setState database collection ⟨.empty, []⟩, ?_,
            image_setState _ _ _ _⟩
          unfold applyRecovered
          rw [isState]
      | put _ _ _ _ =>
          cases applies
      | delete _ _ _ =>
          cases applies
      | createIndex _ _ _ =>
          cases applies
      | dropIndex _ _ _ =>
          cases applies
  | some state =>
      rw [isState] at applies
      cases isInStore : operation.inStore with
      | none =>
          cases operation with
          | createCollection database collection =>
              cases applies
              refine ⟨recovered, ?_, rfl⟩
              unfold applyRecovered
              rw [isState]
          | put _ _ _ _ =>
              cases isInStore
          | delete _ _ _ =>
              cases isInStore
          | createIndex _ _ _ =>
              cases isInStore
          | dropIndex _ _ _ =>
              cases isInStore
      | some inStore =>
          rw [isInStore] at applies
          rcases Option.map_eq_some_iff.mp applies with
            ⟨store, storeApplies, rfl⟩
          rcases @applyToState_ok root lsn state operation inStore store
              isInStore storeApplies with ⟨next, nextOk, rfl⟩
          refine ⟨_, ?_, image_setState _ _ _ _⟩
          unfold applyRecovered
          rw [isState]
          cases operation with
          | createCollection _ _ =>
              cases isInStore
          | put _ _ _ _ =>
              exact congrArg (Except.map _) nextOk
          | delete _ _ _ =>
              exact congrArg (Except.map _) nextOk
          | createIndex _ _ _ =>
              exact congrArg (Except.map _) nextOk
          | dropIndex _ _ _ =>
              exact congrArg (Except.map _) nextOk

/-- A record of the log and its operations. -/
def IsRecordOf (record : Wal.WalRecord) (operations : List Operation) : Prop :=
  (record.type : Int) = transactionType ∧
    decodeOperations record.payload = .ok operations

/-- Replaying records does to the image what their operations do. -/
theorem replayRecords_ok
    {root : JsString}
    {records : List Wal.WalRecord}
    {history : List (List Operation)}
    {image : Image}
    (recordsOf : List.Forall₂ IsRecordOf records history)
    (replays :
      Journal.replay Image.applyRecord recovered.image history =
        some image) :
    ∃ reached, records.foldlM (replayRecord root) recovered = .ok reached ∧
      reached.image = image := by
  refine Journal.foldlM_of_replay ?_ recordsOf replays
  intro state record operations next isRecordOf applies
  unfold replayRecord
  rw [if_neg (not_not_intro isRecordOf.1), isRecordOf.2]
  have sameOperations : List.Forall₂ Eq operations operations :=
    List.forall₂_eq_eq_eq ▸ rfl
  refine Journal.foldlM_of_replay ?_ sameOperations applies
  rintro current operation _ reached rfl currentApplies
  exact applyRecovered_ok currentApplies

end Recovered

namespace StorageEngine

/-- What is kept of a collection of an engine. -/
theorem store?_image
    (engine : StorageEngine)
    (database collection : JsString) :
    engine.image.store? database collection =
      (engine.getCollection database collection).map Collection.image :=
  findIn?_viewMaps _ _ _ _

/-- The image with another collection. -/
theorem image_withCollection
    (engine : StorageEngine)
    (database collection : JsString)
    (store : Collection) :
    (engine.withCollection database collection store).image =
      engine.image.putStore database collection store.image :=
  viewMaps_set _ _ _ _ _

end StorageEngine

/-!
## Registering what is recovered
-/

/-- Setting values one after the other, each of them made by a step. -/
theorem JsMap.foldlM_set
    {κ α ν ε : Type}
    [DecidableEq κ]
    {step : JsMap κ ν → κ × α → Except ε (JsMap κ ν)}
    {made : κ × α → ν → Prop}
    {entries : List (κ × α)}
    (steps :
      ∀ entry ∈ entries, ∃ value, made entry value ∧
        ∀ map, step map entry = .ok (map.set entry.1 value))
    {map : JsMap κ ν}
    (distinct : (map.keys ++ entries.map Prod.fst).Nodup) :
    ∃ final added, entries.foldlM step map = .ok final ∧
      List.Forall₂
        (fun entry new => new.1 = entry.1 ∧ made entry new.2)
        entries added ∧
      final.entries = map.entries ++ added := by
  induction entries generalizing map with
  | nil =>
      exact ⟨map, [], rfl, .nil, by simp⟩
  | cons entry rest inductionHypothesis =>
      rw [List.forall_mem_cons] at steps
      rcases steps with ⟨⟨value, isMade, stepOk⟩, later⟩
      rw [List.map_cons] at distinct
      have absent : entry.1 ∉ map.keys := by
        intro present
        exact (List.nodup_append.mp distinct).2.2 _ present _
          List.mem_cons_self rfl
      have nextDistinct :
          ((map.set entry.1 value).keys ++ rest.map Prod.fst).Nodup := by
        rw [JsMap.keys_set_of_not_mem absent, List.append_assoc]
        exact distinct
      rcases inductionHypothesis later nextDistinct with
        ⟨final, added, folds, pairs, isFinal⟩
      refine ⟨final, (entry.1, value) :: added, ?_,
        .cons ⟨rfl, isMade⟩ pairs, ?_⟩
      · rw [List.foldlM_cons, stepOk]
        exact folds
      · rw [isFinal, JsMap.entries_set_of_not_mem absent, List.append_assoc]
        rfl

/-- Values that are seen alike make the same table. -/
theorem mapValues_of_pairs
    {κ α ν μ : Type}
    {first : α → μ}
    {second : ν → μ}
    {entries : List (κ × α)}
    {added : List (κ × ν)}
    (pairs :
      List.Forall₂
        (fun entry new => new.1 = entry.1 ∧ second new.2 = first entry.2)
        entries added) :
    OrderedTable.mapValues second added =
      OrderedTable.mapValues first entries := by
  induction pairs with
  | nil =>
      rfl
  | cons same _ inductionHypothesis =>
      simp only [OrderedTable.mapValues, List.map_cons] at *
      rw [same.1, same.2, inductionHypothesis]

/-- A recovered collection that can be built as it was. -/
def RecoveredState.Opens (state : RecoveredState) : Prop :=
  ∃ store, Collection.create state.documents state.indexes = .ok store ∧
    store.image = state.image ∧ store.Lasting

/-- Every collection of an engine can be opened again. -/
def Lasting (databases : JsMap JsString CollectionMap) : Prop :=
  ∀ database ∈ databases.entries, database.2.entries ≠ [] ∧
    ∀ collection ∈ database.2.entries, collection.2.Lasting

/-- The databases of collections that can be built are registered. -/
theorem registerAll_ok
    (root : JsString)
    {recovered : Recovered}
    (opens :
      ∀ database ∈ recovered.entries, database.2.entries ≠ [] ∧
        ∀ collection ∈ database.2.entries, collection.2.Opens) :
    ∃ databases, registerAll root recovered = .ok databases ∧
      viewMaps Collection.image databases = recovered.image ∧
      Lasting databases := by
  have registers :
      ∀ database ∈ recovered.entries, ∃ collections : CollectionMap,
        registerDatabase root database.1 database.2 = .ok collections ∧
          OrderedTable.mapValues Collection.image collections.entries =
            OrderedTable.mapValues RecoveredState.image
              database.2.entries ∧
          collections.entries ≠ [] ∧
          ∀ collection ∈ collections.entries, collection.2.Lasting := by
    intro database member
    rcases opens database member with ⟨nonempty, collectionsOpen⟩
    rcases @JsMap.foldlM_set JsString RecoveredState Collection Thrown _
        (fun registered entry => do
          let store ←
            (Collection.create entry.2.documents entry.2.indexes).mapError
              (cannotRebuild root database.1 entry.1)
          return registered.set entry.1 store)
        (fun entry store => store.image = entry.2.image ∧ store.Lasting)
        database.2.entries
        (by
          intro collection isCollection
          rcases collectionsOpen collection isCollection with
            ⟨store, creates, same, lasting⟩
          refine ⟨store, ⟨same, lasting⟩, fun map => ?_⟩
          simp only [creates]
          rfl)
        .empty database.2.nodup_keys with
      ⟨collections, added, folds, pairs, entries⟩
    have isAdded : collections.entries = added := entries
    refine ⟨collections, folds, ?_, ?_, ?_⟩
    · rw [isAdded]
      exact mapValues_of_pairs
        (pairs.imp fun _ _ made => ⟨made.1, made.2.1⟩)
    · rw [isAdded]
      intro nothing
      rw [nothing] at pairs
      exact nonempty (List.forall₂_nil_right_iff.mp pairs)
    · rw [isAdded]
      intro collection isCollection
      rcases Lists.exists_of_mem_right pairs isCollection with
        ⟨_, -, made⟩
      exact made.2.2
  rcases @JsMap.foldlM_set JsString (JsMap JsString RecoveredState)
      CollectionMap Thrown _
      (fun registered entry => do
        let collections ← registerDatabase root entry.1 entry.2
        if collections.size = 0 then
          return registered
        else
          return registered.set entry.1 collections)
      (fun entry collections =>
        OrderedTable.mapValues Collection.image collections.entries =
            OrderedTable.mapValues RecoveredState.image entry.2.entries ∧
          collections.entries ≠ [] ∧
          ∀ collection ∈ collections.entries, collection.2.Lasting)
      recovered.entries
      (by
        intro database member
        rcases registers database member with
          ⟨collections, registered, same, nonempty, lasting⟩
        refine ⟨collections, ⟨same, nonempty, lasting⟩, fun map => ?_⟩
        have notZero : ¬ collections.size = 0 := by
          unfold JsMap.size
          rw [List.length_eq_zero_iff]
          exact nonempty
        simp only [registered, Result.ok_bind, if_neg notZero]
        rfl)
      .empty recovered.nodup_keys with
    ⟨databases, added, folds, pairs, entries⟩
  have isAdded : databases.entries = added := entries
  refine ⟨databases, folds, ?_, ?_⟩
  · unfold viewMaps Recovered.image
    rw [isAdded]
    exact mapValues_of_pairs
      (pairs.imp fun _ _ made => ⟨made.1, made.2.1⟩)
  · unfold Lasting
    rw [isAdded]
    intro database member
    rcases Lists.exists_of_mem_right pairs member with ⟨_, -, made⟩
    exact made.2.2

end SinterDb
