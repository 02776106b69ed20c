import SinterDb.Storage.InsertBatch
import SinterDb.Storage.LookupAgreement

namespace SinterDb

open Unicode

/-!
# Writes that throw change nothing

Whatever a write throws, the documents, the definitions of the indexes, and
the answers of every lookup are those from before it; but `insertMany` rolls
nothing back when a later document of its batch cannot be decoded.
-/

namespace Collection

section Indexing

variable
  {collection built : Collection}

/-- A set that has indexes left after a drop had some before. -/
theorem isEmpty_of_drop
    {set : IndexSet}
    {name : JsString}
    (notEmpty : IndexSet.isEmpty (IndexSet.drop set name) = false) :
    IndexSet.isEmpty set = false := by
  by_contra empty
  have noEntries : set.entries = [] := by
    simpa [IndexSet.isEmpty, JsMap.size] using empty
  simp [IndexSet.isEmpty, IndexSet.drop, JsMap.size, noEntries] at notEmpty

/-- An index that is left after a drop was there before. -/
theorem get?_of_drop
    {set : IndexSet}
    {name other : JsString}
    {index : FieldIndex}
    (found : (IndexSet.drop set name).get? other = some index) :
    set.get? other = some index := by
  unfold IndexSet.drop at found
  rw [JsMap.get?_delete] at found
  split_ifs at found
  exact found

/-- When everything can be decoded, the decoded entries are the decoded
documents. -/
theorem decodedEntries_eq
    (decodes : AllDecode collection.documents.entries) :
    collection.decodedEntries = collection.decoded.map Except.ok := by
  unfold decodedEntries decoded
  generalize collection.documents.entries = entries at decodes
  induction entries with
  | nil =>
      rfl
  | cons entry rest inductionHypothesis =>
      obtain ⟨⟨document, isDocument⟩, later⟩ :=
        List.forall_mem_cons.mp decodes
      rw [List.map_cons, inductionHypothesis later, List.filterMap_cons,
        isDocument]
      rfl

/-- A new index is built from documents that can all be decoded. -/
theorem allDecode_of_buildIndex
    {spec : IndexSpec}
    (sound : collection.Sound)
    (builds : collection.buildIndex spec = .ok (built, true)) :
    AllDecode collection.documents.entries := by
  obtain ⟨⟨indexes, result⟩, creates, builds⟩ := Result.bind_eq_ok.mp builds
  have keyed :
      ∀ key document, .ok (key, document) ∈ collection.decodedEntries →
        document.Keyed := by
    intro key document member
    obtain ⟨encoded, isEntry, decodes⟩ := mem_decodedEntries member
    exact sound.keyed isEntry decodes
  rcases IndexSet.create_spec keyed creates with
    ⟨rfl, rfl⟩ | ⟨rfl, -, index, -, -, -, covers⟩
  · cases (Prod.mk.inj (Except.ok.inj builds)).2
  · intro entry member
    obtain ⟨key, document, isEntry, -⟩ :=
      covers _ (List.mem_map_of_mem member)
    obtain ⟨other, isDecoded, -⟩ := Result.bind_eq_ok.mp isEntry
    exact ⟨other, decodes_of_lift isDecoded⟩

/-- A new index is built from the decoded documents. -/
theorem represents_buildIndex
    {spec : IndexSpec}
    {created : Bool}
    (isExact : collection.Exact)
    (builds : collection.buildIndex spec = .ok (built, created)) :
    built.indexes.Represents collection.decoded ∧
      built.indexes.Distinguishes collection.decoded ∧
      (created = true → AllDecode collection.documents.entries) := by
  rcases buildIndex_cases isExact.toSound builds with
    ⟨rfl, rfl⟩ | ⟨rfl, -, index, -, -, -, isIndexes, -⟩
  · exact ⟨isExact.represents, isExact.distinguishes, nofun⟩
  · have decodes := allDecode_of_buildIndex isExact.toSound builds
    obtain ⟨⟨indexes, result⟩, creates, builds⟩ := Result.bind_eq_ok.mp builds
    rw [decodedEntries_eq decodes] at creates
    have represents :=
      IndexSet.create_represents isExact.stored_decoded isExact.represents
        (.refl _) creates
    have distinguishes :=
      IndexSet.create_distinguishes isExact.stored_decoded
        isExact.distinguishes creates
    have sameIndexes : built.indexes = indexes := by
      simp only at builds
      split at builds
      · cases (Prod.mk.inj (Except.ok.inj builds)).2
      · split_ifs at builds
        · obtain ⟨rfl, -⟩ := Prod.mk.inj (Except.ok.inj builds)
          exact (numberDocuments_spec _).2.1
        · obtain ⟨rfl, -⟩ := Prod.mk.inj (Except.ok.inj builds)
          rfl
    rw [sameIndexes]
    exact ⟨represents, distinguishes, fun _ => decodes⟩

/-- An index that was built and taken away again. -/
theorem same_removeIndex
    {name : JsString}
    {index : FieldIndex}
    (isExact : collection.Exact)
    (absent : collection.indexes.get? name = none)
    (documents : built.documents = collection.documents)
    (indexes : built.indexes = collection.indexes.set name index) :
    collection.Same (built.removeIndex name) := by
  have lookUp :
      ∀ other, (built.removeIndex name).indexes.get? other =
        collection.indexes.get? other := by
    intro other
    simp only [removeIndex, IndexSet.drop, indexes, JsMap.get?_delete,
      JsMap.get?_set]
    split_ifs with same
    · rw [same, absent]
    · rfl
  refine ⟨documents, ⟨?_, fun other => ?_⟩, ?_⟩
  · have fresh := JsMap.get?_eq_none.mp absent
    simp only [removeIndex, IndexSet.drop, indexes, JsMap.keys_delete,
      JsMap.keys_set_of_not_mem fresh, List.filter_append]
    have others :
        (collection.indexes.keys.filter fun other => !(other = name)) =
          collection.indexes.keys := by
      rw [List.filter_eq_self]
      intro other member
      simpa using ne_of_mem_of_not_mem member fresh
    simpa using others
  · rw [lookUp]
  · intro other found isFound
    rw [lookUp] at isFound
    exact isExact.represents other found isFound

/-- `createIndex` leaves exact indexes, or everything as it was. -/
theorem atomic_createIndex
    (isExact : collection.Exact)
    (input : CreateIndexInput) :
    collection.Atomic (collection.createIndex input) := by
  refine atomic_attempt isExact fun spec _ => ?_
  refine atomic_attempt isExact fun result builds => ?_
  obtain ⟨built, created⟩ := result
  obtain ⟨represents, distinguishes, decodes⟩ :=
    represents_buildIndex isExact builds
  rcases buildIndex_cases isExact.toSound builds with
    ⟨rfl, rfl⟩ |
    ⟨rfl, absent, index, -, -, documents, indexes, -⟩
  · exact atomic_done isExact
  · intro answer
    cases answer with
    | ok _ =>
        refine ⟨fun sound => ⟨sound, ?_, ?_, ?_⟩, nofun⟩
        · intro _
          show AllDecode built.documents.entries
          rw [documents]
          exact decodes rfl
        · show built.indexes.Represents built.decoded
          rw [decoded_congr documents]
          exact represents
        · show built.indexes.Distinguishes built.decoded
          rw [decoded_congr documents]
          exact distinguishes
    | error error =>
        have same := same_removeIndex isExact absent documents indexes
        exact ⟨same.exact isExact, fun _ _ _ => same⟩

/-- `dropIndex` leaves exact indexes, or everything as it was. -/
theorem atomic_dropIndex
    (isExact : collection.Exact)
    (name : JsString) :
    collection.Atomic (collection.dropIndex name) := by
  unfold dropIndex
  split_ifs
  · exact atomic_done isExact
  · intro answer
    cases answer with
    | error error =>
        exact ⟨fun _ => isExact, fun _ _ _ => isExact.same⟩
    | ok _ =>
        constructor
        · refine fun sound => ⟨sound, ?_, ?_, ?_⟩
          · intro notEmpty
            exact isExact.decodes (isEmpty_of_drop notEmpty)
          · intro other index found
            exact isExact.represents other index (get?_of_drop found)
          · intro other index found
            exact isExact.distinguishes other index (get?_of_drop found)
        · intro error fails
          cases fails
  · exact atomic_done isExact

end Indexing

/-- The call spoils the indexes of the collection. -/
def SpoiledBy (collection : Collection) : WriteCall → Prop
  | .insertMany generated documents => collection.Spoils generated documents
  | _ => False

/-- No call of a run spoils the indexes. -/
def Careful :
    Collection → List (WriteCall × Except Thrown Unit) → Prop
  | _, [] => True
  | collection, call :: rest =>
      ¬ collection.SpoiledBy call.1 ∧
        Careful ((collection.perform call.1).run call.2).1 rest

/-- Nothing that a caller can see is different. -/
structure Unchanged (collection final : Collection) : Prop where
  documents : final.documents = collection.documents
  specs :
    IndexSet.specs final.indexes = IndexSet.specs collection.indexes
  answers :
    ∀ name index, collection.indexes.get? name = some index →
      ∃ other, final.indexes.get? name = some other ∧
        index.SameAnswers other

section Runs

variable
  {collection final : Collection}

/-- A call that proposes a batch. -/
theorem atomic_of_propose
    {call : WriteCall}
    {proposed : Except Thrown Proposal}
    (isExact : collection.Exact)
    (proposes : collection.propose call = some proposed) :
    collection.Atomic (collection.perform call) := by
  intro answer
  rcases settled_perform isExact proposes answer with
    ⟨error, -, throws⟩ | ⟨proposal, -, settled⟩
  · rw [throws]
    exact ⟨fun _ => isExact, fun _ _ _ => isExact.same⟩
  · refine ⟨settled.exact isExact, ?_⟩
    intro error isError _
    revert settled
    rw [isError]
    rintro (⟨-, same⟩)
    exact same

/-- A call that does not spoil the indexes leaves them exact, or everything as
it was. -/
theorem atomic_perform
    {call : WriteCall}
    (isExact : collection.Exact)
    (unspoiled : ¬ collection.SpoiledBy call) :
    collection.Atomic (collection.perform call) := by
  cases call with
  | insertOne generated document =>
      exact atomic_of_propose isExact rfl
  | insertMany generated documents =>
      exact atomic_map (atomic_insertMany isExact unspoiled) _
  | updateOne filter update upserts generated =>
      exact atomic_of_propose isExact rfl
  | updateMany filter update upserts generated =>
      exact atomic_of_propose isExact rfl
  | replaceOne filter replacement upserts generated =>
      exact atomic_of_propose isExact rfl
  | deleteOne filter =>
      exact atomic_of_propose isExact rfl
  | deleteMany filter =>
      exact atomic_of_propose isExact rfl
  | createIndex input =>
      exact atomic_map (atomic_createIndex isExact input) _
  | dropIndex name =>
      exact atomic_map (atomic_dropIndex isExact name) _

/-- Careful runs keep the indexes exact. -/
theorem exact_run
    {calls : List (WriteCall × Except Thrown Unit)}
    (isExact : collection.Exact)
    (careful : collection.Careful calls) :
    (collection.run calls).Exact := by
  induction calls generalizing collection with
  | nil =>
      exact isExact
  | cons call rest inductionHypothesis =>
      obtain ⟨unspoiled, careful⟩ := careful
      have sound := ensures_perform isExact.toSound call.1 call.2
      exact inductionHypothesis
        ((atomic_perform isExact unspoiled call.2).1 sound) careful

/-- The documents that a collection is opened with are stored ones. -/
def StoredDocuments (documents : JsMap JsString Bytes) : Prop :=
  ∀ key encoded, (key, encoded) ∈ documents.entries → StoredAs key encoded

/-- Opening a collection builds exact indexes. -/
theorem exact_create
    {documents : JsMap JsString Bytes}
    {specs : List IndexSpec}
    (stored : StoredDocuments documents)
    (creates : create documents specs = .ok collection) :
    collection.Exact := by
  have start : ({ empty with documents := documents } : Collection).Exact := by
    refine exact_of_isEmpty ⟨⟨nofun, nofun⟩, stored, ?_, ?_⟩ rfl
    · intro name index found
      cases found
    · intro key document _ name index found
      cases found
  unfold create at creates
  generalize ({ empty with documents := documents } : Collection) = opened
    at start creates
  induction specs generalizing opened with
  | nil =>
      obtain rfl := Except.ok.inj creates
      exact start
  | cons spec rest inductionHypothesis =>
      rw [List.foldlM_cons] at creates
      obtain ⟨next, step, creates⟩ := Result.bind_eq_ok.mp creates
      obtain ⟨⟨built, created⟩, builds, same⟩ := Result.bind_eq_ok.mp step
      obtain rfl := Except.ok.inj same
      have sound := sound_buildIndex start.toSound builds
      obtain ⟨represents, distinguishes, decodes⟩ :=
        represents_buildIndex start builds
      refine inductionHypothesis built ?_ creates
      rcases buildIndex_cases start.toSound builds with
        ⟨-, rfl⟩ | ⟨rfl, -, index, -, -, documents, -⟩
      · exact start
      · refine ⟨sound, fun _ => ?_, ?_, ?_⟩
        · rw [documents]
          exact decodes rfl
        · rw [decoded_congr documents]
          exact represents
        · rw [decoded_congr documents]
          exact distinguishes

/-- What is the same cannot be told apart. -/
theorem Same.unchanged
    (same : collection.Same final)
    (isExact : collection.Exact) :
    collection.Unchanged final := by
  refine ⟨same.documents, same.definitions.specs, ?_⟩
  intro name index found
  have specs := same.definitions.spec name
  rw [found] at specs
  obtain ⟨other, isOther, isSpec⟩ := Option.map_eq_some_iff.mp specs
  exact ⟨other, isOther,
    (isExact.represents name index found).sameAnswers
      (same.represents name other isOther) isSpec⟩

/-- After a careful run of an opened collection, a call that throws and does
not spoil the indexes changes nothing. -/
theorem run_unchanged
    {documents : JsMap JsString Bytes}
    {specs : List IndexSpec}
    {calls : List (WriteCall × Except Thrown Unit)}
    {call : WriteCall}
    {answer : Except Thrown Unit}
    {error : Thrown}
    (stored : StoredDocuments documents)
    (creates : create documents specs = .ok collection)
    (careful : collection.Careful calls)
    (unspoiled : ¬ (collection.run calls).SpoiledBy call)
    (throws :
      (((collection.run calls).perform call).run answer).2 = .error error)
    (notBatch : ¬ IsInsertMany error) :
    (collection.run calls).Unchanged
      (((collection.run calls).perform call).run answer).1 := by
  have isExact := exact_run (exact_create stored creates) careful
  exact ((atomic_perform isExact unspoiled answer).2 error throws
    notBatch).unchanged isExact

end Runs

/-- A document with a number. -/
def withNumber (number : Int) : Document :=
  [(utf16 "n", .number (.ofInt number))]

/-- Two documents and a unique index over them. -/
def uniqueRun : List (WriteCall × Except Thrown Unit) :=
  [(.insertOne (plainId 1) (withNumber 5), .ok ()),
    (.createIndex { field := utf16 "n", unique := some true }, .ok ()),
    (.insertOne (plainId 2) (withNumber 7), .ok ())]

/-- A deletion of all documents, refused by the journal. -/
theorem run_unchanged_deleteMany :
    (((empty.run uniqueRun).perform (.deleteMany [])).run
          (.error (.other (utf16 "disk full")))).2 =
        .error (.other (utf16 "disk full")) ∧
      (empty.run uniqueRun).Unchanged
        (((empty.run uniqueRun).perform (.deleteMany [])).run
          (.error (.other (utf16 "disk full")))).1 := by
  have throws :
      (((empty.run uniqueRun).perform (.deleteMany [])).run
          (.error (.other (utf16 "disk full")))).2 =
        .error (.other (utf16 "disk full")) := by
    decide +kernel
  exact ⟨throws,
    @run_unchanged empty .empty [] _ _ _ _ nofun rfl ⟨id, id, id, trivial⟩ id
      throws id⟩

/-- A document that can be encoded but not decoded: the decoder drops the byte
order mark of the first name, which makes it the second one. -/
def undecodable : Document :=
  [(0xFEFF :: utf16 "a", .null), (utf16 "a", .null)]

/-- A batch whose second document cannot be decoded. -/
def spoiledBatch : WriteCall :=
  .insertMany (fun index => plainId (.ofNat index))
    [withNumber 5, undecodable]

/-- A unique index of an empty collection. -/
def uniqueIndex : List (WriteCall × Except Thrown Unit) :=
  [(.createIndex { field := utf16 "n", unique := some true }, .ok ())]

/-- The first document of the batch is listed in the unique index. -/
def listsFirst (collection : Collection) : Option Bool :=
  (collection.indexes.get? (utf16 "n_1")).map fun index =>
    decide ((plainId 0).toHexString ∈
      (index.lookupEqual (.number (.ofInt 5))).getD [])

/-- The batch throws, and the index keeps the document that was not stored. -/
theorem not_unchanged_spoiledBatch :
    ¬ ∀ calls call answer error,
        (((empty.run calls).perform call).run answer).2 = .error error →
          ¬ IsInsertMany error →
          (empty.run calls).Unchanged
            (((empty.run calls).perform call).run answer).1 := by
  intro unchanged
  have throws :
      (((empty.run uniqueIndex).perform spoiledBatch).run (.ok ())).2 =
        .error (.protocol ⟨.duplicateDocumentKey,
          utf16 "Document contains the duplicate key \"a\"."⟩) := by
    decide +kernel
  have same := unchanged uniqueIndex spoiledBatch (.ok ()) _ throws id
  have before : listsFirst (empty.run uniqueIndex) = some false := by
    decide +kernel
  have after :
      listsFirst
          (((empty.run uniqueIndex).perform spoiledBatch).run (.ok ())).1 =
        some true := by
    decide +kernel
  obtain ⟨index, found, notListed⟩ := Option.map_eq_some_iff.mp before
  obtain ⟨other, isOther, answers⟩ := same.answers _ index found
  obtain ⟨final, isFinal, listed⟩ := Option.map_eq_some_iff.mp after
  obtain rfl := Option.some.inj (isOther.symm.trans isFinal)
  exact of_decide_eq_false notListed
    ((answers.equal _ _).mp (of_decide_eq_true listed))

end Collection

end SinterDb
