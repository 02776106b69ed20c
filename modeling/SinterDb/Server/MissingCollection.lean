import SinterDb.Server.CommandDispatcher
import SinterDb.Storage.FindScan

namespace SinterDb

open Unicode

/-!
# Collections that do not exist

A command on a missing collection answers like one on an empty collection
without indexes, as far as it checks what the collection would check.
-/

namespace Collection

/-- A collection without documents and without indexes. -/
structure Bare (collection : Collection) : Prop where
  documents : collection.documents.size = 0
  indexes : collection.indexes.size = 0

namespace Bare

variable
  {collection : Collection}
  (bare : collection.Bare)

include bare

/-- There is no entry. -/
theorem entries_eq : collection.documents.entries = [] :=
  List.length_eq_zero_iff.mp bare.documents

/-- No document is found by its key. -/
theorem get?_eq
    (key : JsString) :
    collection.documents.get? key = none := by
  unfold JsMap.get?
  rw [bare.entries_eq]
  rfl

/-- There is no index. -/
theorem isEmpty_eq : IndexSet.isEmpty collection.indexes = true :=
  beq_iff_eq.mpr bare.indexes

/-- A filter scans. -/
theorem planKeys_eq
    (filter : Document) :
    collection.planKeys filter = none :=
  if_pos bare.isEmpty_eq

/-- There is no candidate. -/
theorem candidates_eq
    (filter : Document) :
    collection.candidates filter = [] := by
  unfold candidates
  rw [bare.planKeys_eq]
  exact bare.entries_eq

/-- Nothing is located. -/
theorem locate_eq
    (filter : Document)
    (test : CompiledFilter) :
    collection.locate filter test = .ok none := by
  unfold locate
  split
  · simp only [bare.get?_eq]
  · rw [bare.candidates_eq]
    rfl

/-- `findOne` only compiles its filter. -/
theorem findOne_eq
    (filter : Document) :
    collection.findOne filter = (compileFilter filter).map fun _ => none := by
  unfold findOne
  cases compileFilter filter with
  | error error =>
      rfl
  | ok test =>
      simp only [Result.ok_bind]
      split
      · simp only [findById, bare.get?_eq]
        rfl
      · rw [bare.candidates_eq]
        rfl

/-- `explain` only compiles its filter. -/
theorem explain_eq
    (filter : Document) :
    collection.explain filter =
      (compileFilter filter).map fun _ => describePlan (.collScan 0) 0 := by
  have scans : collection.plan filter = .collScan 0 := by
    unfold plan planQuery
    rw [if_pos bare.documents, bare.documents]
  unfold explain
  rw [scans, bare.documents]
  cases compileFilter filter <;> rfl

/-- `validateIndexes` finds nothing. -/
theorem validateIndexes_eq : collection.validateIndexes = .ok [] :=
  if_pos bare.isEmpty_eq

/-- `deleteOne` only compiles its filter. -/
theorem deleteOne_eq
    (filter : Document) :
    collection.deleteOne filter =
      .done collection ((compileFilter filter).map fun _ => 0) := by
  unfold deleteOne
  cases compileFilter filter with
  | error error =>
      rfl
  | ok test =>
      simp only [attempt, bare.locate_eq]
      rfl

/-- `deleteMany` only compiles its filter. -/
theorem deleteMany_eq
    (filter : Document) :
    collection.deleteMany filter =
      .done collection ((compileFilter filter).map fun _ => 0) := by
  unfold deleteMany
  cases compileFilter filter with
  | error error =>
      rfl
  | ok test =>
      simp only [attempt, bare.candidates_eq, allMatches, List.map_nil,
        bare.isEmpty_eq, if_true, trackAndCommit, trackChanges,
        IndexSet.applyChanges, commit]
      rfl

/-- `replaceOne` without an upsert compiles its filter and checks the
replacement. -/
theorem replaceOne_eq
    (filter replacement : Document)
    (generated : CustomId) :
    collection.replaceOne filter replacement false generated =
      .done collection
        (do
          let _ ← compileFilter filter
          let _ ← validateReplacement replacement
          return ⟨0, 0, none⟩) := by
  unfold replaceOne
  cases compileFilter filter with
  | error error =>
      rfl
  | ok test =>
      cases validateReplacement replacement with
      | error error =>
          rfl
      | ok checked =>
          simp only [attempt, bare.locate_eq]
          rfl

/-- `updateOne` without an upsert compiles its filter and its update. -/
theorem updateOne_eq
    (filter update : Document)
    (generated : CustomId) :
    collection.updateOne filter update false generated =
      .done collection
        (do
          let _ ← compileFilter filter
          let _ ← compileUpdate update
          return ⟨0, 0, none⟩) := by
  unfold updateOne
  cases compileFilter filter with
  | error error =>
      rfl
  | ok test =>
      cases compileUpdate update with
      | error error =>
          rfl
      | ok apply =>
          simp only [attempt, bare.locate_eq]
          rfl

/-- `updateMany` without an upsert compiles its filter and its update. -/
theorem updateMany_eq
    (filter update : Document)
    (generated : CustomId) :
    collection.updateMany filter update false generated =
      .done collection
        (do
          let _ ← compileFilter filter
          let _ ← compileUpdate update
          return ⟨0, 0, none⟩) := by
  unfold updateMany
  cases compileFilter filter with
  | error error =>
      rfl
  | ok test =>
      cases compileUpdate update with
      | error error =>
          rfl
      | ok apply =>
          simp only [attempt, bare.candidates_eq]
          rfl

/-- There is nothing to iterate over. -/
theorem remaining_eq : collection.remaining (.documents 0) = [] := by
  have entries := documentsFrom_entries 0 collection.documents.slots
  change _ = collection.documents.entries at entries
  rw [bare.entries_eq] at entries
  exact List.map_eq_nil_iff.mp entries

end Bare

/-- A sort has nothing to put in order. -/
theorem sorter_nil
    {specification : List SortEntry}
    {sorter : CompiledSort}
    (compiles : compileSort specification = .ok sorter) :
    sorter [] = [] := by
  obtain ⟨keys, _, same⟩ := Result.bind_eq_ok.mp compiles
  obtain rfl := Except.ok.inj same
  rfl

/-- The generator of `find` ends at once. -/
theorem Bare.next_eq
    {collection : Collection}
    (bare : collection.Bare)
    {filter : Document}
    {options : FindParameters}
    {scan : Scan}
    (finds : findWith filter options = .ok scan) :
    ∃ after, scan.next collection = (.ok none, after) := by
  obtain ⟨_, _, finds⟩ := Result.bind_eq_ok.mp finds
  obtain ⟨sort, _, finds⟩ := Result.bind_eq_ok.mp finds
  obtain ⟨test, _, finds⟩ := Result.bind_eq_ok.mp finds
  obtain ⟨sorter, compiles, finds⟩ := Result.bind_eq_ok.mp finds
  obtain ⟨skip, _, finds⟩ := Result.bind_eq_ok.mp finds
  obtain ⟨limit, _, same⟩ := Result.bind_eq_ok.mp finds
  obtain rfl := Except.ok.inj same
  have opens : collection.openCandidates filter = .documents 0 := by
    unfold openCandidates
    rw [bare.planKeys_eq]
  cases sorter with
  | none =>
      refine ⟨⟨filter, test, none, skip, limit, .finished⟩, ?_⟩
      simp only [Scan.next, Scan.step, opens, bare.remaining_eq, Scan.advance]
  | some sorter =>
      have sorts : sorter [] = [] := by
        cases sort with
        | none =>
            cases compiles
        | some specification =>
            obtain ⟨other, isSorter, same⟩ := Result.bind_eq_ok.mp compiles
            obtain rfl := Option.some.inj (Except.ok.inj same)
            exact sorter_nil isSorter
      refine ⟨⟨filter, test, some sorter, skip, limit, .finished⟩, ?_⟩
      simp only [Scan.next, Scan.step, bare.candidates_eq, allMatches,
        List.map_nil, sorts, Scan.slice, sliceOf]
      cases limit <;> simp [Scan.nextSorted]

end Collection

/-- Both names of a namespace are valid. -/
def Namespace.Valid (space : Namespace) : Prop :=
  validateNames space.database space.collection = .ok ()

namespace Server

/-- A collection is missing on one server and without documents and indexes on
another. -/
structure Apart (missing existing : Server) (space : Namespace) : Prop where
  absent : missing.catalog.lookup space.database space.collection = none
  present :
    ∃ collection,
      existing.catalog.lookup space.database space.collection =
        some collection ∧ collection.Bare

section Replies

variable
  {missing existing : Server}

/-- Commands agree when they agree on what passes their checks. -/
theorem check_eq_iff
    {α : Type}
    {checked : Except CommandExecutionError α}
    {first second : α → Reply × Server} :
    (missing.check checked first).1 = (existing.check checked second).1 ↔
      ∀ value, checked = .ok value → (first value).1 = (second value).1 := by
  cases checked with
  | error error =>
      simp [check]
  | ok value =>
      simp [check]

/-- What a missing collection answers. -/
theorem onCollection_absent
    {server : Server}
    {space : Namespace}
    (absent : server.catalog.lookup space.database space.collection = none)
    (missing : Except Thrown Document)
    (present : Collection → Except Failure Document × Server) :
    (server.onCollection space missing present).1 =
      (validateNames space.database space.collection >>= fun _ =>
        missing.mapError .thrown).mapError translate := by
  unfold onCollection catching Catalog.getCollection
  rw [absent]
  cases validateNames space.database space.collection <;> rfl

/-- What a collection answers. -/
theorem onCollection_present
    {server : Server}
    {space : Namespace}
    {collection : Collection}
    (found :
      server.catalog.lookup space.database space.collection = some collection)
    (missing : Except Thrown Document)
    (present : Collection → Except Failure Document × Server) :
    (server.onCollection space missing present).1 =
      (validateNames space.database space.collection >>= fun _ =>
        (present collection).1).mapError translate := by
  unfold onCollection catching Catalog.getCollection
  rw [found]
  cases validateNames space.database space.collection <;> rfl

/-- A missing collection answers like an empty one when its names are wrong or
both do the same. -/
theorem Apart.onCollection_iff
    {space : Namespace}
    (apart : Apart missing existing space)
    {absent other : Except Thrown Document}
    {ignored present : Collection → Except Failure Document × Server}
    {result : Except Failure Document}
    (answers : ∀ collection, collection.Bare → (present collection).1 = result) :
    (missing.onCollection space absent ignored).1 =
        (existing.onCollection space other present).1 ↔
      (space.Valid →
        (absent.mapError Failure.thrown).mapError translate =
          result.mapError translate) := by
  obtain ⟨collection, found, bare⟩ := apart.present
  rw [onCollection_absent apart.absent, onCollection_present found,
    answers collection bare, Namespace.Valid]
  cases validateNames space.database space.collection with
  | error error =>
      simp
  | ok checked =>
      simp

/-- A missing collection answers like an empty one when both do the same. -/
theorem Apart.onCollection_eq
    {space : Namespace}
    (apart : Apart missing existing space)
    {absent other : Except Thrown Document}
    {ignored present : Collection → Except Failure Document × Server}
    (answers :
      ∀ collection, collection.Bare →
        (present collection).1 = absent.mapError .thrown) :
    (missing.onCollection space absent ignored).1 =
      (existing.onCollection space other present).1 :=
  (apart.onCollection_iff answers).mpr fun _ => rfl

end Replies

end Server

end SinterDb
