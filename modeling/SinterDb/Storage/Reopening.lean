import SinterDb.Storage.Journaled
import SinterDb.Storage.UniqueWrites

namespace SinterDb

open Unicode

namespace Collection

/-!
# Opening a collection again

The indexes are not stored: a collection that is opened builds them from its
documents and the definitions.  What the writes of a collection leave can
always be opened, and nothing about it is different then.
-/

/-- A collection that can be opened again from what is kept of it. -/
structure Lasting (collection : Collection) : Prop extends
    Exact collection where
  defined : collection.indexes.Defined

/-- A new collection can be opened again. -/
theorem lasting_empty : empty.Lasting where
  toExact := exact_empty
  defined := IndexSet.defined_empty

section Writes

variable
  {collection : Collection}

/-- Setting an end behind changes of the indexes keeps the definitions. -/
theorem sameDefinitions_commit
    {α : Type}
    {tracked : Collection}
    {undo : List UndoStep}
    {operations : List JournalOperation}
    {change : Collection → Collection}
    {result : Except Thrown α}
    (definitions :
      IndexSet.SameDefinitions collection.indexes tracked.indexes)
    (keeps : (change tracked).indexes = tracked.indexes)
    (answer : Except Thrown Unit) :
    IndexSet.SameDefinitions collection.indexes
      ((tracked.commit undo operations change result).run
        answer).1.indexes := by
  have changed :
      IndexSet.SameDefinitions collection.indexes
        (change tracked).indexes := by
    rw [keeps]
    exact definitions
  unfold commit
  split_ifs
  · exact changed
  · cases answer with
    | error error =>
        exact definitions.trans (IndexSet.sameDefinitions_rollback undo _)
    | ok _ =>
        exact changed

/-- `insertMany` keeps the definitions. -/
theorem sameDefinitions_insertMany
    (generated : Nat → CustomId)
    (documents : List Document)
    (answer : Except Thrown Unit) :
    IndexSet.SameDefinitions collection.indexes
      ((collection.insertMany generated documents).run
        answer).1.indexes := by
  have definitions :=
    @sameDefinitions_insertLoop generated documents 0 collection [] []
  unfold insertMany
  split_ifs
  · exact ⟨rfl, fun _ => rfl⟩
  · split
    · rename_i final error loops
      rw [loops] at definitions
      exact definitions
    · rename_i final batch loops
      rw [loops] at definitions
      exact sameDefinitions_commit definitions (putAll_indexes _ _) answer

/-- The settling of a proposal keeps the definitions. -/
theorem Settled.definitions
    {proposal : Proposal}
    {final : Collection}
    {result : Except Thrown WriteResult}
    (settled : Settled collection proposal final result) :
    IndexSet.SameDefinitions collection.indexes final.indexes := by
  cases settled with
  | thrown error same =>
      exact same.definitions
  | done documents definitions represents distinguishes decodes =>
      exact definitions

/-- Every write leaves indexes that are defined. -/
theorem defined_perform
    (isExact : collection.Exact)
    (defined : collection.indexes.Defined)
    (call : WriteCall) :
    (collection.perform call).Ensures fun final => final.indexes.Defined := by
  have proposes :
      ∀ proposed, collection.propose call = some proposed →
        (collection.perform call).Ensures fun final =>
          final.indexes.Defined := by
    intro proposed isProposed answer
    rcases settled_perform isExact isProposed answer with
      ⟨error, -, unchanged⟩ | ⟨proposal, -, settled⟩
    · rw [unchanged]
      exact defined
    · exact defined.congr settled.definitions
  cases call with
  | insertMany generated documents =>
      refine Write.ensures_map (fun answer => ?_) _
      exact defined.congr
        (sameDefinitions_insertMany generated documents answer)
  | createIndex input =>
      refine Write.ensures_map ?_ _
      refine ensures_attempt defined fun spec normalizes => ?_
      refine ensures_attempt defined fun result builds => ?_
      rcases result with ⟨built, created⟩
      rcases defined_buildIndex isExact.toSound defined normalizes builds with
        ⟨rfl, rfl⟩ | ⟨rfl, -, -, -, -, isDefined⟩
      · exact fun _ => defined
      · intro answer
        cases answer with
        | error error =>
            exact (isDefined.without spec.name).2
        | ok _ =>
            exact isDefined
  | dropIndex name =>
      refine Write.ensures_map (fun answer => ?_) _
      unfold dropIndex
      split_ifs
      · exact defined
      · cases answer with
        | error error =>
            exact defined
        | ok _ =>
            exact (defined.without name).2
      · exact defined
  | insertOne _ _ =>
      exact proposes _ rfl
  | updateOne _ _ _ _ =>
      exact proposes _ rfl
  | updateMany _ _ _ _ =>
      exact proposes _ rfl
  | replaceOne _ _ _ _ =>
      exact proposes _ rfl
  | deleteOne _ =>
      exact proposes _ rfl
  | deleteMany _ =>
      exact proposes _ rfl

/-- A write leaves a collection that can be opened again. -/
theorem Lasting.perform
    (lasting : collection.Lasting)
    {call : WriteCall}
    (unspoiled : ¬ collection.SpoiledBy call) :
    (collection.perform call).Ensures Lasting := by
  intro answer
  have sound := ensures_perform lasting.toSound call answer
  exact ⟨(atomic_perform lasting.toExact unspoiled answer).1 sound,
    defined_perform lasting.toExact lasting.defined call answer⟩

end Writes

section Opening

variable
  {collection opened : Collection}

/-- A new index over documents that it allows is built. -/
theorem Allows.buildIndex_eq
    {input : CreateIndexInput}
    {spec : IndexSpec}
    (isExact : collection.Exact)
    (allows : collection.Allows input spec)
    (distinguishes : spec.Distinguishes collection.decoded) :
    ∃ built, collection.buildIndex spec = .ok (built, true) := by
  have builds :=
    @IndexSet.build_distinguishes collection.decoded [] _
      isExact.stored_decoded (FieldIndex.builtFrom_create spec) .nil
  unfold buildIndex
  rw [allows.create_eq]
  cases result : (collection.decoded.map Except.ok).foldlM
      IndexSet.buildStep (FieldIndex.create spec) with
  | error error =>
      rw [result] at builds
      exact absurd distinguishes builds.2
  | ok index =>
      simp only [Result.ok_bind]
      split_ifs <;> exact ⟨_, rfl⟩

/-- The decoded documents depend on the entries only. -/
theorem decoded_of_entries
    (same : opened.documents.entries = collection.documents.entries) :
    opened.decoded = collection.decoded := by
  unfold decoded
  rw [same]

/-- The indexes that are not open yet are built one after the other. -/
theorem Lasting.openIndexes
    (lasting : collection.Lasting)
    {front rest : List IndexSpec}
    (isSplit : IndexSet.specs collection.indexes = front ++ rest)
    (openedLasting : opened.Lasting)
    (documents : opened.documents.entries = collection.documents.entries)
    (specs : IndexSet.specs opened.indexes = front) :
    ∃ reopened,
      rest.foldlM (fun collection spec => do
          let (built, _) ← collection.buildIndex spec
          return built) opened = (.ok reopened : Except Thrown Collection) ∧
        reopened.image = collection.image ∧ reopened.Lasting := by
  induction rest generalizing front opened with
  | nil =>
      refine ⟨opened, rfl, ?_, openedLasting⟩
      rw [List.append_nil] at isSplit
      unfold image
      rw [documents, specs, isSplit]
  | cons spec rest inductionHypothesis =>
      have member : spec ∈ IndexSet.specs collection.indexes := by
        rw [isSplit]
        exact List.mem_append_right _ List.mem_cons_self
      rcases lasting.defined.normalized spec member with ⟨input, normalizes⟩
      have isIndex :
          ∃ index, collection.indexes.get? spec.name = some index ∧
            index.spec = spec := by
        rw [IndexSet.specs_entries] at member
        rcases List.mem_map.mp member with ⟨entry, inEntries, rfl⟩
        refine ⟨entry.2, ?_, rfl⟩
        rw [lasting.defined.named entry inEntries]
        exact JsMap.get?_eq_some.mpr inEntries
      rcases isIndex with ⟨index, isIndex, isSpec⟩
      have notEmpty : IndexSet.isEmpty collection.indexes = false := by
        have present := JsMap.get?_eq_some.mp isIndex
        rw [IndexSet.isEmpty, JsMap.size, beq_eq_false_iff_ne]
        exact (List.length_pos_of_mem present).ne'
      have names := lasting.defined.names
      have fields := lasting.defined.fields
      have few := lasting.defined.few
      have size : collection.indexes.size =
          (IndexSet.specs collection.indexes).length := by
        rw [IndexSet.specs_entries, List.length_map]
        rfl
      have openedSize : opened.indexes.size = front.length := by
        rw [← specs, IndexSet.specs_entries, List.length_map]
        rfl
      have allows : opened.Allows input spec := by
        refine ⟨normalizes, ?_, ?_, ?_, ?_⟩
        · -- The definitions of one set have distinct names.
          rw [JsMap.get?_eq_none, ← openedLasting.defined.names, specs]
          have distinct := collection.indexes.nodup_keys
          rw [← names, isSplit, List.map_append, List.map_cons] at distinct
          intro isOpen
          exact (List.nodup_append.mp distinct).2.2 _ isOpen _
            List.mem_cons_self rfl
        · rw [isSplit, List.map_append, List.map_cons] at fields
          intro other inAll same
          have isOpen : other.spec ∈ front := by
            rw [← specs]
            exact List.mem_map_of_mem inAll
          exact (List.nodup_append.mp fields).2.2 _
            (List.mem_map_of_mem isOpen) _ List.mem_cons_self same
        · rw [size, isSplit, List.length_append, List.length_cons] at few
          rw [openedSize]
          omega
        · rw [documents]
          exact lasting.decodes notEmpty
      have distinguishes : spec.Distinguishes opened.decoded := by
        rw [decoded_of_entries documents, ← isSpec]
        exact lasting.distinguishes spec.name index isIndex
      rcases allows.buildIndex_eq openedLasting.toExact distinguishes with
        ⟨built, builds⟩
      rcases defined_buildIndex openedLasting.toSound openedLasting.defined
          normalizes builds with
        ⟨impossible, -⟩ |
          ⟨-, -, sameDocuments, -, builtSpecs, builtDefined⟩
      · cases impossible
      have builtDocuments :
          built.documents.entries = collection.documents.entries := by
        rw [sameDocuments]
        exact documents
      have builtSound := sound_buildIndex openedLasting.toSound builds
      rcases represents_buildIndex openedLasting.toExact builds with
        ⟨represents, distinguishesAll, decodes⟩
      have builtLasting : built.Lasting := by
        refine ⟨⟨builtSound, fun _ => ?_, ?_, ?_⟩, builtDefined⟩
        · rw [sameDocuments]
          exact decodes rfl
        · rw [decoded_congr sameDocuments]
          exact represents
        · rw [decoded_congr sameDocuments]
          exact distinguishesAll
      rw [specs] at builtSpecs
      rcases @inductionHypothesis built (front ++ [spec])
          (by rw [List.append_assoc]; exact isSplit) builtLasting
          builtDocuments builtSpecs with ⟨reopened, opens, result⟩
      refine ⟨reopened, ?_, result⟩
      rw [List.foldlM_cons, builds]
      exact opens

/-- What a collection leaves can be opened, and it is the same then. -/
theorem Lasting.create_eq
    (lasting : collection.Lasting)
    {documents : JsMap JsString Bytes}
    (same : documents.entries = collection.documents.entries) :
    ∃ reopened,
      create documents (IndexSet.specs collection.indexes) = .ok reopened ∧
        reopened.image = collection.image ∧ reopened.Lasting := by
  have stored : StoredDocuments documents := by
    intro key encoded member
    rw [same] at member
    exact lasting.stored key encoded member
  have creates :
      create documents [] =
        (.ok { empty with documents := documents } :
          Except Thrown Collection) :=
    rfl
  have withoutIndexes :
      ({ empty with documents := documents } : Collection).Lasting :=
    ⟨exact_create stored creates, IndexSet.defined_empty⟩
  have isSplit :
      IndexSet.specs collection.indexes =
        [] ++ IndexSet.specs collection.indexes :=
    rfl
  exact lasting.openIndexes isSplit withoutIndexes same rfl

end Opening

end Collection

end SinterDb
