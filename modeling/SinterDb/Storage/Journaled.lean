import SinterDb.Lib.Journal
import SinterDb.Lib.OrderedTable
import SinterDb.Storage.Atomicity
import SinterDb.Storage.UpsertId

namespace SinterDb

open Unicode

/-!
# What a collection records

On disk a collection is its documents in order and the definitions of its
indexes.  Every write leaves these two as they are, or changes them exactly as
the operations say that it hands to the journal.
-/

/-- What is kept of a collection. -/
structure StoreImage where
  documents : List (JsString × Bytes)
  indexes : List IndexSpec
  deriving Repr, DecidableEq

namespace StoreImage

/-- A collection without documents and indexes. -/
def empty : StoreImage :=
  ⟨[], []⟩

/--
What an operation does to what is kept.  An index that is there already may be
created again with the same definition, and only an index that is there can be
dropped.
-/
def apply (image : StoreImage) : JournalOperation → Option StoreImage
  | .put key document =>
      some { image with
        documents := OrderedTable.put image.documents key document }
  | .delete key =>
      some { image with documents := OrderedTable.remove image.documents key }
  | .createIndex spec =>
      match image.indexes.find? fun index => index.name = spec.name with
      | none => some { image with indexes := image.indexes ++ [spec] }
      | some existing => if sameDefinition existing spec then some image else none
  | .dropIndex name =>
      if image.indexes.any fun index => index.name = name then
        some { image with
          indexes := image.indexes.eraseP fun index => index.name = name }
      else
        none

end StoreImage

/-- What is kept of a collection. -/
def Collection.image (collection : Collection) : StoreImage :=
  ⟨collection.documents.entries, IndexSet.specs collection.indexes⟩

/-- An operation on a document. -/
def JournalOperation.OnDocument : JournalOperation → Prop
  | .put key document => StoredAs key document
  | .delete key => ∃ id : CustomId, id.toHexString = key
  | _ => False

namespace IndexSet

/-- Indexes that are filed under their names, and of which `create` has checked
the definitions. -/
structure Defined (set : IndexSet) : Prop where
  named : ∀ entry ∈ set.entries, entry.2.spec.name = entry.1
  fields : ((specs set).map IndexSpec.field).Nodup
  few : set.size ≤ maxIndexesPerCollection
  normalized :
    ∀ spec ∈ specs set, ∃ input, normalizeIndexSpec input = .ok spec

section Definitions

variable
  {set changed : IndexSet}

/-- The definitions of a set are those of its entries. -/
theorem specs_entries
    (set : IndexSet) :
    specs set = set.entries.map fun entry => entry.2.spec := by
  simp [specs, all, Function.comp_def]

/-- An empty set is defined. -/
theorem defined_empty : Defined .empty where
  named := by simp [JsMap.empty, JsMap.entries]
  fields := by simp [specs_entries, JsMap.empty, JsMap.entries]
  few := by simp [JsMap.size, JsMap.empty, JsMap.entries]
  normalized := by simp [specs_entries, JsMap.empty, JsMap.entries]

/-- The names in the definitions are the keys. -/
theorem Defined.names
    (defined : set.Defined) :
    (specs set).map IndexSpec.name = set.keys := by
  rw [specs_entries, List.map_map]
  exact List.map_congr_left defined.named

/-- Being defined depends on the keys and the definitions only. -/
theorem Defined.congr
    (defined : set.Defined)
    (same : SameDefinitions set changed) :
    changed.Defined where
  named := by
    intro entry member
    have found : changed.get? entry.1 = some entry.2 :=
      JsMap.get?_eq_some.mpr member
    have specs := same.spec entry.1
    rw [found] at specs
    rcases Option.map_eq_some_iff.mp specs.symm with ⟨old, isOld, sameSpec⟩
    rw [← sameSpec]
    exact defined.named (entry.1, old) (JsMap.get?_eq_some.mp isOld)
  fields := by
    rw [same.specs]
    exact defined.fields
  few := by
    have size : changed.size = set.size := by
      have keys := congrArg List.length same.keys
      simpa [JsMap.keys, JsMap.size] using keys
    rw [size]
    exact defined.few
  normalized := by
    rw [same.specs]
    exact defined.normalized

/-- A name is not found among the definitions when there is no such index. -/
theorem Defined.find?_eq_none
    (defined : set.Defined)
    {name : JsString} :
    ((specs set).find? fun spec => spec.name = name) = none ↔
      set.get? name = none := by
  rw [JsMap.get?_eq_none, ← defined.names, List.find?_eq_none]
  simp [eq_comm]

/-- A set with one more index. -/
theorem Defined.add
    (defined : set.Defined)
    {spec : IndexSpec}
    {index : FieldIndex}
    {input : CreateIndexInput}
    (isSpec : index.spec = spec)
    (normalizes : normalizeIndexSpec input = .ok spec)
    (absent : set.get? spec.name = none)
    (newField : ∀ other ∈ all set, other.spec.field ≠ spec.field)
    (room : set.size < maxIndexesPerCollection) :
    specs (JsMap.set set spec.name index) = specs set ++ [spec] ∧
      Defined (JsMap.set set spec.name index) := by
  have entries :
      (JsMap.set set spec.name index).entries =
        set.entries ++ [(spec.name, index)] :=
    JsMap.entries_set_of_not_mem (JsMap.get?_eq_none.mp absent) index
  have allSpecs :
      specs (JsMap.set set spec.name index) = specs set ++ [spec] := by
    rw [specs_entries, entries, List.map_append, ← specs_entries]
    simp [isSpec]
  refine ⟨allSpecs, ?_, ?_, ?_, ?_⟩
  · intro entry member
    rw [entries] at member
    rcases List.mem_append.mp member with old | new
    · exact defined.named entry old
    · rw [List.mem_singleton.mp new, isSpec]
  · rw [allSpecs, List.map_append, List.nodup_append]
    refine ⟨defined.fields, by simp, ?_⟩
    intro field isField other isOther same
    rcases List.mem_map.mp isField with ⟨oldSpec, isOld, rfl⟩
    rcases List.mem_map.mp isOld with ⟨old, inAll, rfl⟩
    simp only [List.map_cons, List.map_nil, List.mem_singleton] at isOther
    exact newField old inAll (same.trans isOther)
  · have size : (JsMap.set set spec.name index).size = set.size + 1 := by
      simp [JsMap.size, entries]
    rw [size]
    exact room
  · intro other member
    rw [allSpecs] at member
    rcases List.mem_append.mp member with old | new
    · exact defined.normalized other old
    · exact ⟨input, (List.mem_singleton.mp new).symm ▸ normalizes⟩

/-- A set without one of its indexes. -/
theorem Defined.without
    (defined : set.Defined)
    (name : JsString) :
    specs (drop set name) =
        (specs set).eraseP (fun spec => spec.name = name) ∧
      Defined (drop set name) := by
  have erased : ∀ entries : List (JsString × FieldIndex),
      (entries.map Prod.fst).Nodup →
      (∀ entry ∈ entries, entry.2.spec.name = entry.1) →
        ((entries.filter fun entry => !(entry.1 = name)).map fun entry =>
            entry.2.spec) =
          (entries.map fun entry => entry.2.spec).eraseP fun spec =>
            spec.name = name := by
    intro entries distinct named
    induction entries with
    | nil =>
        rfl
    | cons entry rest inductionHypothesis =>
        rw [List.forall_mem_cons] at named
        rw [List.map_cons, List.nodup_cons] at distinct
        by_cases isName : entry.1 = name
        · -- The name does not occur again, so that nothing else is removed.
          have others :
              (rest.filter fun other => !(other.1 = name)) = rest := by
            refine List.filter_eq_self.mpr fun other member => ?_
            have different : other.1 ≠ name := by
              rintro rfl
              exact distinct.1 (isName ▸ List.mem_map_of_mem member)
            simp [different]
          rw [List.filter_cons_of_neg (by simp [isName]), others,
            List.map_cons,
            List.eraseP_cons_of_pos (by simp [named.1, isName])]
        · rw [List.filter_cons_of_pos (by simp [isName]), List.map_cons,
            List.map_cons,
            List.eraseP_cons_of_neg (by simp [named.1, isName]),
            inductionHypothesis distinct.2 named.2]
  have entries :
      (drop set name).entries =
        set.entries.filter fun entry => !(entry.1 = name) :=
    JsMap.entries_delete set name
  have isErased :
      specs (drop set name) =
        (specs set).eraseP fun spec => spec.name = name := by
    rw [specs_entries, specs_entries, entries]
    exact erased set.entries set.nodup_keys defined.named
  have fewer : (specs (drop set name)).Sublist (specs set) := by
    rw [isErased]
    exact List.eraseP_sublist
  refine ⟨isErased, ?_, ?_, ?_, ?_⟩
  · intro entry member
    rw [entries] at member
    exact defined.named entry (List.mem_of_mem_filter member)
  · exact (fewer.map IndexSpec.field).nodup defined.fields
  · refine le_trans ?_ defined.few
    unfold JsMap.size
    rw [entries]
    exact List.length_filter_le _ _
  · intro spec member
    exact defined.normalized spec (fewer.subset member)

end Definitions

end IndexSet

/-- Operations carried out on what is kept. -/
def StoreImage.applyAll
    (image : StoreImage)
    (operations : List JournalOperation) : Option StoreImage :=
  Journal.replay StoreImage.apply image operations

/-- An operation that a call may record. -/
def Collection.RecordedBy
    (collection : Collection)
    (call : WriteCall)
    (operation : JournalOperation) : Prop :=
  operation.OnDocument ∨
    (∃ input spec, call = .createIndex input ∧
      normalizeIndexSpec input = .ok spec ∧ operation = .createIndex spec) ∨
    ∃ name, call = .dropIndex name ∧ collection.indexes.has name = true ∧
      operation = .dropIndex name

/--
A write that changes what is kept exactly as its operations say, all of which
are allowed.  While the journal records them nothing is changed yet, apart from
an index that is there before it is recorded.
-/
inductive Write.Journals
    {α : Type}
    (collection : Collection)
    (allowed : JournalOperation → Prop) : Write α → Prop where
  | done
      {final : Collection}
      {result : Except Thrown α}
      (same : final.image = collection.image) :
      Journals collection allowed (.done final result)
  | commit
      {during : Collection}
      {operations : List JournalOperation}
      {resume : Except Thrown Unit → Collection × Except Thrown α}
      (waits :
        during.image = collection.image ∨
          (∃ spec, operations = [.createIndex spec]) ∧
            collection.image.applyAll operations = some during.image)
      (refused : ∀ error, (resume (.error error)).1.image = collection.image)
      (recorded :
        collection.image.applyAll operations =
          some (resume (.ok ())).1.image)
      (allows : ∀ operation ∈ operations, allowed operation) :
      Journals collection allowed (.commit during operations resume)

namespace Collection

section Rules

variable
  {α β : Type}
  {collection tracked : Collection}
  {allowed others : JournalOperation → Prop}

/-- The same documents and definitions are the same image. -/
theorem image_congr
    (documents : tracked.documents = collection.documents)
    (definitions :
      IndexSet.SameDefinitions collection.indexes tracked.indexes) :
    tracked.image = collection.image := by
  unfold image
  rw [documents, definitions.specs]

/-- What an operation on a document does to the image. -/
theorem apply_image
    {operation : JournalOperation}
    (onDocument : operation.OnDocument)
    (collection : Collection) :
    collection.image.apply operation =
      some (operation.carryOut collection).image := by
  cases operation with
  | put key document =>
      have entries :=
        OrderedTable.entries_set collection.documents key document
      simp only [StoreImage.apply, JournalOperation.carryOut, image,
        put_documents, put_indexes, entries]
  | delete key =>
      have entries := JsMap.entries_delete collection.documents key
      simp only [StoreImage.apply, JournalOperation.carryOut, image, remove,
        OrderedTable.remove, entries]
  | createIndex spec =>
      exact onDocument.elim
  | dropIndex name =>
      exact onDocument.elim

/-- What operations on documents do to the image. -/
theorem applyAll_image
    {operations : List JournalOperation}
    (onDocuments : ∀ operation ∈ operations, operation.OnDocument)
    (collection : Collection) :
    collection.image.applyAll operations =
      some (collection.carryOut operations).image := by
  induction operations generalizing collection with
  | nil =>
      rfl
  | cons operation rest inductionHypothesis =>
      rw [List.forall_mem_cons] at onDocuments
      have later :=
        inductionHypothesis onDocuments.2 (operation.carryOut collection)
      rw [StoreImage.applyAll, Journal.replay, List.foldlM_cons,
        apply_image onDocuments.1]
      exact later

/-- Using the result of a write further does not change what it records. -/
theorem journals_map
    {write : Write α}
    (journals : write.Journals collection allowed)
    (use : α → β) :
    (write.map use).Journals collection allowed := by
  cases journals with
  | done same =>
      exact .done same
  | commit waits refused recorded allows =>
      exact .commit waits refused recorded allows

/-- More operations may be allowed. -/
theorem journals_mono
    {write : Write α}
    (journals : write.Journals collection allowed)
    (implies : ∀ operation, allowed operation → others operation) :
    write.Journals collection others := by
  cases journals with
  | done same =>
      exact .done same
  | commit waits refused recorded allows =>
      exact .commit waits refused recorded
        fun operation member => implies operation (allows operation member)

/-- A write that may stop early. -/
theorem journals_attempt
    {result : Except Thrown α}
    {next : α → Write β}
    (later :
      ∀ value, result = .ok value →
        (next value).Journals collection allowed) :
    (collection.attempt result next).Journals collection allowed := by
  cases result with
  | error error =>
      exact .done rfl
  | ok value =>
      exact later value rfl

/-- The last part of a write, behind changes of the indexes. -/
theorem journals_commit
    {undo : List UndoStep}
    {operations : List JournalOperation}
    {change : Collection → Collection}
    {result : Except Thrown α}
    (documents : tracked.documents = collection.documents)
    (definitions :
      IndexSet.SameDefinitions collection.indexes tracked.indexes)
    (onDocuments : ∀ operation ∈ operations, operation.OnDocument)
    (carriesOut : change tracked = tracked.carryOut operations) :
    (tracked.commit undo operations change result).Journals collection
      JournalOperation.OnDocument := by
  have same := image_congr documents definitions
  have changes :
      collection.image.applyAll operations = some (change tracked).image := by
    rw [← same, carriesOut]
    exact applyAll_image onDocuments tracked
  unfold commit
  split_ifs with nothing
  · refine .done ?_
    rw [nothing] at changes
    exact (Option.some.inj changes).symm
  · refine .commit (.inl same) (fun error => ?_) changes onDocuments
    have undone : (tracked.rollback undo).documents = collection.documents :=
      documents
    exact image_congr undone
      (definitions.trans (IndexSet.sameDefinitions_rollback undo _))

/-- Changes that are tracked and committed. -/
theorem journals_settle
    {proposal : Proposal}
    (onDocuments :
      ∀ operation ∈ proposal.operations, operation.OnDocument) :
    (collection.settle proposal).Journals collection
      JournalOperation.OnDocument := by
  have definitions :=
    IndexSet.sameDefinitions_applyChanges collection.indexes
      proposal.changes
  unfold settle trackAndCommit trackChanges
  cases applies : IndexSet.applyChanges collection.indexes
      proposal.changes with
  | mk indexes tracking =>
      rw [applies] at definitions
      cases tracking with
      | error error =>
          exact .done (image_congr rfl definitions)
      | ok undo =>
          exact journals_commit rfl definitions onDocuments rfl

end Rules

section Proposing

variable
  {collection : Collection}
  {proposal : Proposal}

/-- A located document is deleted under the key of its id. -/
theorem onDocument_delete
    {located : LocatedDocument}
    (sound : collection.Sound)
    (isLocated : collection.IsLocated located) :
    (JournalOperation.delete located.key).OnDocument := by
  rcases sound.stored _ _ isLocated.stored with ⟨-, id, -, -, isKey⟩
  exact ⟨id, isKey⟩

/-- An insert puts a document. -/
theorem onDocuments_insert
    {generated : CustomId}
    {document : Document}
    {use : CustomId → WriteResult}
    (proposes :
      collection.proposeInsert generated document use = .ok proposal) :
    ∀ operation ∈ proposal.operations, operation.OnDocument := by
  rcases Result.bind_eq_ok.mp proposes with ⟨prepared, prepares, proposes⟩
  have stored := (prepareInsert_ok prepares).1.stored
  have isPut : proposal.operations =
      [.put prepared.key prepared.encoded] := by
    simp only at proposes
    split_ifs at proposes
    · rw [← Except.ok.inj proposes]
    · rcases Result.bind_eq_ok.mp proposes with ⟨after, -, same⟩
      rw [← Except.ok.inj same]
  rw [isPut, List.forall_mem_singleton]
  exact stored

/-- The upsert of an update puts a document. -/
theorem onDocuments_upsertFromUpdate
    {filter : Document}
    {apply : CompiledUpdate}
    {upserts : Bool}
    {generated : CustomId}
    (proposes :
      collection.proposeUpsertFromUpdate filter apply upserts generated =
        .ok proposal) :
    ∀ operation ∈ proposal.operations, operation.OnDocument := by
  unfold proposeUpsertFromUpdate at proposes
  split_ifs at proposes
  · rcases Result.bind_eq_ok.mp proposes with ⟨document, -, inserts⟩
    exact onDocuments_insert inserts
  · rw [← Except.ok.inj proposes]
    simp [Proposal.nothing]

/-- Another encoding of a document is put under its key. -/
theorem onDocuments_replacement
    {located : LocatedDocument}
    {encoded : Bytes}
    (stored : StoredAs located.key encoded)
    (proposes : proposeReplacement located encoded = .ok proposal) :
    ∀ operation ∈ proposal.operations, operation.OnDocument := by
  rcases Result.bind_eq_ok.mp proposes with ⟨after, -, same⟩
  rw [← Except.ok.inj same, List.forall_mem_singleton]
  exact stored

/-- `updateOne` puts one document. -/
theorem onDocuments_updateOne
    {filter update : Document}
    {upserts : Bool}
    {generated : CustomId}
    (sound : collection.Sound)
    (proposes :
      collection.proposeUpdateOne filter update upserts generated =
        .ok proposal) :
    ∀ operation ∈ proposal.operations, operation.OnDocument := by
  rcases Result.bind_eq_ok.mp proposes with ⟨test, -, proposes⟩
  rcases Result.bind_eq_ok.mp proposes with ⟨apply, compiles, proposes⟩
  rcases Result.bind_eq_ok.mp proposes with ⟨first, locates, proposes⟩
  cases first with
  | none =>
      exact onDocuments_upsertFromUpdate proposes
  | some located =>
      rcases Result.bind_eq_ok.mp proposes with ⟨pending, prepares, proposes⟩
      have isLocated := isLocated_of_locate locates
      cases pending with
      | none =>
          rw [← Except.ok.inj proposes]
          simp [Proposal.nothing]
      | some prepared =>
          exact onDocuments_replacement
            (storedAs_of_prepareUpdate sound isLocated compiles prepares).2
            proposes

/-- `updateMany` puts documents. -/
theorem onDocuments_updateMany
    {filter update : Document}
    {upserts : Bool}
    {generated : CustomId}
    (sound : collection.Sound)
    (proposes :
      collection.proposeUpdateMany filter update upserts generated =
        .ok proposal) :
    ∀ operation ∈ proposal.operations, operation.OnDocument := by
  rcases Result.bind_eq_ok.mp proposes with ⟨test, -, proposes⟩
  rcases Result.bind_eq_ok.mp proposes with ⟨apply, compiles, proposes⟩
  rcases Result.bind_eq_ok.mp proposes with ⟨updates, collects, proposes⟩
  split_ifs at proposes
  · exact onDocuments_upsertFromUpdate proposes
  · have isUpdates :=
      updates_collectUpdates sound compiles (fun _ => mem_candidates) collects
    rw [← Except.ok.inj proposes, List.forall_mem_map]
    exact isUpdates.stored

/-- `replaceOne` puts one document. -/
theorem onDocuments_replaceOne
    {filter replacement : Document}
    {upserts : Bool}
    {generated : CustomId}
    (sound : collection.Sound)
    (proposes :
      collection.proposeReplaceOne filter replacement upserts generated =
        .ok proposal) :
    ∀ operation ∈ proposal.operations, operation.OnDocument := by
  rcases Result.bind_eq_ok.mp proposes with ⟨test, -, proposes⟩
  rcases Result.bind_eq_ok.mp proposes with ⟨_, -, proposes⟩
  rcases Result.bind_eq_ok.mp proposes with ⟨first, locates, proposes⟩
  cases first with
  | none =>
      simp only at proposes
      split_ifs at proposes
      · rcases Result.bind_eq_ok.mp proposes with ⟨document, -, inserts⟩
        exact onDocuments_insert inserts
      · rw [← Except.ok.inj proposes]
        simp [Proposal.nothing]
  | some located =>
      rcases Result.bind_eq_ok.mp proposes with ⟨document, replaces, proposes⟩
      rcases Result.bind_eq_ok.mp proposes with ⟨encoded, encodes, proposes⟩
      split_ifs at proposes
      · rw [← Except.ok.inj proposes]
        simp [Proposal.nothing]
      · rcases (isLocated_of_locate locates).id sound with ⟨id, hasId, isKey⟩
        refine onDocuments_replacement ?_ proposes
        rw [← isKey]
        refine storedAs_of_encoded encodes ?_
        rw [replacementFor_id hasId replaces, Document.get?_set, if_pos rfl]

/-- What a call proposes is about documents. -/
theorem onDocuments_of_propose
    {call : WriteCall}
    (sound : collection.Sound)
    (proposes : collection.propose call = some (.ok proposal)) :
    ∀ operation ∈ proposal.operations, operation.OnDocument := by
  cases call with
  | insertOne generated document =>
      exact onDocuments_insert (Option.some.inj proposes)
  | insertMany generated documents =>
      cases proposes
  | updateOne filter update upserts generated =>
      exact onDocuments_updateOne sound (Option.some.inj proposes)
  | updateMany filter update upserts generated =>
      exact onDocuments_updateMany sound (Option.some.inj proposes)
  | replaceOne filter replacement upserts generated =>
      exact onDocuments_replaceOne sound (Option.some.inj proposes)
  | deleteOne filter =>
      rcases Result.bind_eq_ok.mp (Option.some.inj proposes) with
        ⟨test, -, proposed⟩
      rcases Result.bind_eq_ok.mp proposed with ⟨first, locates, proposed⟩
      cases first with
      | none =>
          rw [← Except.ok.inj proposed]
          simp [Proposal.nothing]
      | some located =>
          rw [← Except.ok.inj proposed, List.forall_mem_singleton]
          exact onDocument_delete sound (isLocated_of_locate locates)
  | deleteMany filter =>
      rcases Result.bind_eq_ok.mp (Option.some.inj proposes) with
        ⟨test, -, proposed⟩
      rcases Result.bind_eq_ok.mp proposed with ⟨located, finds, proposed⟩
      have isLocated :=
        isLocated_of_allMatches (fun _ => mem_candidates) finds
      rw [← Except.ok.inj proposed, List.forall_mem_map, List.forall_mem_map]
      exact fun document member =>
        onDocument_delete sound (isLocated document member)
  | createIndex input =>
      cases proposes
  | dropIndex name =>
      cases proposes

end Proposing

section Batches

variable
  {collection : Collection}
  {generated : Nat → CustomId}

/-- An attempt to insert keeps the definitions. -/
theorem sameDefinitions_tryInsert
    {pending : List JsString}
    {generated : CustomId}
    {document : Document} :
    IndexSet.SameDefinitions collection.indexes
      (collection.tryInsert pending generated document).1.indexes := by
  have nothing :
      IndexSet.SameDefinitions collection.indexes collection.indexes :=
    ⟨rfl, fun _ => rfl⟩
  unfold tryInsert trackInsert
  cases collection.prepareInsert pending generated document with
  | error error =>
      exact nothing
  | ok prepared =>
      simp only
      split_ifs
      · exact nothing
      · cases decodeDocument prepared.encoded with
        | error error =>
            exact nothing
        | ok after =>
            exact IndexSet.sameDefinitions_applyChanges collection.indexes _

/-- The loop of `insertMany` keeps the definitions. -/
theorem sameDefinitions_insertLoop
    (documents : List Document)
    (index : Nat)
    (collection : Collection)
    (accepted : List PreparedInsert)
    (rollbacks : List (List UndoStep)) :
    IndexSet.SameDefinitions collection.indexes
      (insertLoop generated documents index collection accepted
        rollbacks).1.indexes := by
  induction documents generalizing index collection accepted rollbacks with
  | nil =>
      exact ⟨rfl, fun _ => rfl⟩
  | cons document rest inductionHypothesis =>
      have first :=
        @sameDefinitions_tryInsert collection
          (accepted.map PreparedInsert.key) (generated index) document
      unfold insertLoop
      split
      · rename_i tracked prepared undo tries
        rw [tries] at first
        exact first.trans (inductionHypothesis _ _ _ _)
      · rename_i tracked error tries
        rw [tries] at first
        exact first
      · rename_i tracked error _ tries
        rw [tries] at first
        exact first

/-- `insertMany` records the documents that it accepts. -/
theorem journals_insertMany
    (documents : List Document) :
    (collection.insertMany generated documents).Journals collection
      JournalOperation.OnDocument := by
  have start : collection.BatchInvariant collection.indexes [] [] :=
    ⟨by simp, by simp [IndexSet.Removals]⟩
  have definitions :=
    @sameDefinitions_insertLoop generated documents 0 collection [] []
  unfold insertMany
  split_ifs
  · exact .done rfl
  · split
    · rename_i final error loops
      rw [loops] at definitions
      rcases insertLoop_spec start loops with ⟨shape, -⟩
      have same : final.documents = collection.documents := by
        rw [shape]
      exact .done (image_congr same definitions)
    · rename_i final batch loops
      rw [loops] at definitions
      rcases insertLoop_spec start loops with
        ⟨shape, exempt, -, -, invariant⟩
      have isTracked := (invariant batch rfl).isTracked
      have same : final.documents = collection.documents := by
        rw [shape]
      refine journals_commit same definitions ?_ ?_
      · rw [List.forall_mem_map]
        exact fun prepared member => (isTracked prepared member).stored
      · have puts :=
          carryOut_puts final
            (batch.accepted.map fun entry => (entry.key, entry.encoded))
        rw [List.map_map] at puts
        exact puts.symm

end Batches

section Indexing

variable
  {collection built : Collection}

/-- How building an index changes the definitions. -/
theorem defined_buildIndex
    {spec : IndexSpec}
    {input : CreateIndexInput}
    {created : Bool}
    (sound : collection.Sound)
    (defined : collection.indexes.Defined)
    (normalizes : normalizeIndexSpec input = .ok spec)
    (builds : collection.buildIndex spec = .ok (built, created)) :
    (created = false ∧ built = collection) ∨
      (created = true ∧ collection.indexes.get? spec.name = none ∧
        built.documents = collection.documents ∧
        (∃ index, built.indexes = collection.indexes.set spec.name index) ∧
        IndexSet.specs built.indexes =
          IndexSet.specs collection.indexes ++ [spec] ∧
        built.indexes.Defined) := by
  rcases buildIndex_cases sound builds with
    same | ⟨isCreated, absent, index, -, isSpec, documents, indexes, -⟩
  · exact .inl same
  · refine .inr ⟨isCreated, absent, documents, ⟨index, indexes⟩, ?_⟩
    rcases Result.bind_eq_ok.mp builds with ⟨⟨changed, result⟩, creates, -⟩
    unfold IndexSet.create at creates
    rw [absent] at creates
    simp only at creates
    split at creates
    · cases creates
    · rename_i noField
      split_ifs at creates with full
      have newField :
          ∀ other ∈ IndexSet.all collection.indexes,
            other.spec.field ≠ spec.field := by
        intro other member
        simpa using List.find?_eq_none.mp noField other member
      rw [indexes]
      exact defined.add isSpec normalizes absent newField
        (Nat.lt_of_not_le full)

/-- `createIndex` records the definition. -/
theorem journals_createIndex
    (sound : collection.Sound)
    (defined : collection.indexes.Defined)
    (input : CreateIndexInput) :
    (collection.createIndex input).Journals collection fun operation =>
      ∃ spec, normalizeIndexSpec input = .ok spec ∧
        operation = .createIndex spec := by
  refine journals_attempt fun spec normalizes => ?_
  refine journals_attempt fun result builds => ?_
  rcases result with ⟨built, created⟩
  rcases defined_buildIndex sound defined normalizes builds with
    ⟨rfl, rfl⟩ | ⟨rfl, absent, documents, ⟨index, indexes⟩, specs, isDefined⟩
  · exact .done rfl
  · have recorded :
        collection.image.applyAll [.createIndex spec] = some built.image := by
      rw [StoreImage.applyAll, Journal.replay_singleton]
      unfold StoreImage.apply
      simp only [image, defined.find?_eq_none.mpr absent, documents, specs]
    have refused :
        (built.removeIndex spec.name).image = collection.image := by
      have erased := (isDefined.without spec.name).1
      have notThere :
          ∀ other ∈ IndexSet.specs collection.indexes,
            ¬ decide (other.name = spec.name) = true :=
        fun other member =>
          List.find?_eq_none.mp (defined.find?_eq_none.mpr absent) other
            member
      rw [specs, List.eraseP_append_right _ notThere] at erased
      simp only [image, removeIndex, documents, erased]
      simp
    exact .commit (.inr ⟨⟨spec, rfl⟩, recorded⟩) (fun _ => refused) recorded
      (by simpa using normalizes)

/-- `dropIndex` records the name. -/
theorem journals_dropIndex
    (defined : collection.indexes.Defined)
    (name : JsString) :
    (collection.dropIndex name).Journals collection fun operation =>
      collection.indexes.has name = true ∧ operation = .dropIndex name := by
  unfold dropIndex
  split_ifs with isId present
  · exact .done rfl
  · have isThere :
        ((IndexSet.specs collection.indexes).any fun spec =>
          spec.name = name) = true := by
      have isKey := JsMap.has_iff.mp present
      rw [← defined.names] at isKey
      rcases List.mem_map.mp isKey with ⟨spec, member, isName⟩
      exact List.any_eq_true.mpr ⟨spec, member, decide_eq_true isName⟩
    have erased := (defined.without name).1
    refine .commit (.inl rfl) (fun _ => rfl) ?_
      (by simpa using present)
    rw [StoreImage.applyAll, Journal.replay_singleton]
    unfold StoreImage.apply
    simp only [image, isThere, if_true, removeIndex, erased]
  · exact .done rfl

/-- Every write records what it changes. -/
theorem journals_perform
    (sound : collection.Sound)
    (defined : collection.indexes.Defined)
    (call : WriteCall) :
    (collection.perform call).Journals collection
      (collection.RecordedBy call) := by
  have onDocument :
      ∀ operation : JournalOperation, operation.OnDocument →
        collection.RecordedBy call operation :=
    fun _ isOnDocument => .inl isOnDocument
  have settles :
      ∀ proposed, collection.propose call = some proposed →
        (collection.perform call).Journals collection
          (collection.RecordedBy call) := by
    intro proposed proposes
    rw [perform_eq proposes]
    refine journals_attempt fun proposal isProposal => ?_
    rw [isProposal] at proposes
    exact journals_mono
      (journals_settle (onDocuments_of_propose sound proposes)) onDocument
  cases call with
  | insertMany generated documents =>
      exact journals_map
        (journals_mono (journals_insertMany documents) onDocument) _
  | createIndex input =>
      refine journals_map
        (journals_mono (journals_createIndex sound defined input) ?_) _
      rintro operation ⟨spec, normalizes, isCreated⟩
      exact .inr (.inl ⟨input, spec, rfl, normalizes, isCreated⟩)
  | dropIndex name =>
      refine journals_map
        (journals_mono (journals_dropIndex defined name) ?_) _
      rintro operation ⟨present, isDropped⟩
      exact .inr (.inr ⟨name, rfl, present, isDropped⟩)
  | insertOne _ _ =>
      exact settles _ rfl
  | updateOne _ _ _ _ =>
      exact settles _ rfl
  | updateMany _ _ _ _ =>
      exact settles _ rfl
  | replaceOne _ _ _ _ =>
      exact settles _ rfl
  | deleteOne _ =>
      exact settles _ rfl
  | deleteMany _ =>
      exact settles _ rfl

end Indexing

end Collection

end SinterDb
