import SinterDb.Storage.CleanUpdate
import SinterDb.Storage.Proposal
import SinterDb.Storage.Readable

namespace SinterDb

open Unicode

/-!
# Runs whose documents can be read

Calls whose documents, operands and paths have no byte order marks store
documents without byte order marks, through every write and every update, so
that everything that they store can be read back.
-/

/-- The bytes encode a document without byte order marks. -/
def PlainEncoding (encoded : Bytes) : Prop :=
  ∃ document, (DocumentValue.document document).Clean ∧
    encodeDocument document = .ok encoded

/-- The encoding of a clean document. -/
theorem plainEncoding_of_encoded
    {document : Document}
    {encoded : Bytes}
    (clean : (DocumentValue.document document).Clean)
    (encodes : encodeStoredDocument document = .ok encoded) :
    PlainEncoding encoded := by
  unfold encodeStoredDocument at encodes
  split at encodes
  · rename_i result isResult
    rw [Except.ok.inj encodes] at isResult
    exact ⟨document, clean, isResult⟩
  · cases encodes

/-- What such bytes decode to has no byte order marks. -/
theorem PlainEncoding.clean
    {encoded : Bytes}
    {document : Document}
    (plain : PlainEncoding encoded)
    (decodes : decodeDocument encoded = .ok document) :
    (DocumentValue.document document).Clean := by
  obtain ⟨source, ⟨distinct, unmarked⟩, encodes⟩ := plain
  obtain ⟨other, isOther, again⟩ :=
    decoded_of_unmarked distinct unmarked encodes
  obtain rfl := Except.ok.inj (isOther.symm.trans decodes)
  exact ⟨DocumentValue.restore_distinctKeys
      (decodeDocument_of_encoded encodes decodes),
    unmarked_of_decoded again decodes again⟩

/-- An operation that puts no byte order marks. -/
def JournalOperation.Plain : JournalOperation → Prop
  | .put _ encoded => PlainEncoding encoded
  | _ => True

/-- The arguments of a call that it may store have no byte order marks. -/
def WriteCall.Clean : WriteCall → Prop
  | .insertOne _ document => (DocumentValue.document document).Clean
  | .insertMany _ documents =>
      ∀ document ∈ documents, (DocumentValue.document document).Clean
  | .updateOne filter update upserts _ =>
      CleanUpdate update ∧ (upserts = true → CleanFilter filter)
  | .updateMany filter update upserts _ =>
      CleanUpdate update ∧ (upserts = true → CleanFilter filter)
  | .replaceOne _ replacement _ _ =>
      (DocumentValue.document replacement).Clean
  | _ => True

namespace Collection

/-- Every stored document is one without byte order marks. -/
def Plain (collection : Collection) : Prop :=
  ∀ entry ∈ collection.documents.entries, PlainEncoding entry.2

section Proposals

variable
  {collection tracked : Collection}
  {proposal : Proposal}

/-- A located document of a plain collection is clean. -/
theorem Plain.located
    (plain : collection.Plain)
    {located : LocatedDocument}
    (isLocated : collection.IsLocated located) :
    (DocumentValue.document located.document).Clean :=
  (plain _ isLocated.stored).clean isLocated.decodes

/-- The key of the id has no byte order mark. -/
theorem idField_unmarked : startsWithBom idField = false := by
  decide

/-- An insert of a clean document stores a plain encoding. -/
theorem plain_prepareInsert
    {pending : List JsString}
    {generated : CustomId}
    {document : Document}
    {prepared : PreparedInsert}
    (clean : (DocumentValue.document document).Clean)
    (prepares :
      collection.prepareInsert pending generated document = .ok prepared) :
    PlainEncoding prepared.encoded := by
  obtain ⟨id, -, prepares⟩ := Result.bind_eq_ok.mp prepares
  simp only at prepares
  split_ifs at prepares
  · cases prepares
  · obtain ⟨encoded, encodes, same⟩ := Result.bind_eq_ok.mp prepares
    obtain rfl := Except.ok.inj same
    exact plainEncoding_of_encoded
      (clean_set clean idField_unmarked (clean_customId id)) encodes

/-- `insertOne` puts a plain encoding. -/
theorem plain_insert
    {generated : CustomId}
    {document : Document}
    {use : CustomId → WriteResult}
    (clean : (DocumentValue.document document).Clean)
    (proposes :
      collection.proposeInsert generated document use = .ok proposal) :
    ∀ operation ∈ proposal.operations, operation.Plain := by
  obtain ⟨prepared, prepares, proposes⟩ := Result.bind_eq_ok.mp proposes
  have isPlain := plain_prepareInsert clean prepares
  have isPut :
      proposal.operations = [.put prepared.key prepared.encoded] := by
    simp only at proposes
    split_ifs at proposes
    · rw [← Except.ok.inj proposes]
    · obtain ⟨after, -, same⟩ := Result.bind_eq_ok.mp proposes
      rw [← Except.ok.inj same]
  rw [isPut, List.forall_mem_singleton]
  exact isPlain

/-- The upsert of an update puts a plain encoding. -/
theorem plain_upsertFromUpdate
    {filter update : Document}
    {apply : CompiledUpdate}
    {upserts : Bool}
    {generated : CustomId}
    (isUpdate : CleanUpdate update)
    (isFilter : upserts = true → CleanFilter filter)
    (compiles : compileUpdate update = .ok apply)
    (proposes :
      collection.proposeUpsertFromUpdate filter apply upserts generated =
        .ok proposal) :
    ∀ operation ∈ proposal.operations, operation.Plain := by
  unfold proposeUpsertFromUpdate at proposes
  split_ifs at proposes with asked
  · obtain ⟨document, builds, inserts⟩ := Result.bind_eq_ok.mp proposes
    obtain ⟨seed, seeds, applies⟩ := Result.bind_eq_ok.mp builds
    have isSeed := clean_seedFields (isFilter asked) clean_empty seeds
    exact plain_insert
      (clean_compileUpdate isUpdate compiles isSeed applies) inserts
  · rw [← Except.ok.inj proposes]
    simp [Proposal.nothing]

/-- Another encoding of a document is put. -/
theorem plain_replacement
    {located : LocatedDocument}
    {encoded : Bytes}
    (isPlain : PlainEncoding encoded)
    (proposes : proposeReplacement located encoded = .ok proposal) :
    ∀ operation ∈ proposal.operations, operation.Plain := by
  obtain ⟨after, -, same⟩ := Result.bind_eq_ok.mp proposes
  rw [← Except.ok.inj same, List.forall_mem_singleton]
  exact isPlain

/-- An update of a clean document gives a plain encoding. -/
theorem plain_prepareUpdate
    {located : LocatedDocument}
    {update : Document}
    {apply : CompiledUpdate}
    {prepared : JsString × Bytes}
    (isUpdate : CleanUpdate update)
    (compiles : compileUpdate update = .ok apply)
    (clean : (DocumentValue.document located.document).Clean)
    (prepares : prepareUpdate located apply = .ok (some prepared)) :
    PlainEncoding prepared.2 := by
  obtain ⟨changed, applies, prepares⟩ := Result.bind_eq_ok.mp prepares
  obtain ⟨encoded, encodes, prepares⟩ := Result.bind_eq_ok.mp prepares
  have isPrepared := Except.ok.inj prepares
  split_ifs at isPrepared
  obtain rfl := Option.some.inj isPrepared
  exact plainEncoding_of_encoded
    (clean_compileUpdate isUpdate compiles clean applies) encodes

/-- `updateOne` puts a plain encoding. -/
theorem plain_updateOne
    {filter update : Document}
    {upserts : Bool}
    {generated : CustomId}
    (plain : collection.Plain)
    (isUpdate : CleanUpdate update)
    (isFilter : upserts = true → CleanFilter filter)
    (proposes :
      collection.proposeUpdateOne filter update upserts generated =
        .ok proposal) :
    ∀ operation ∈ proposal.operations, operation.Plain := by
  obtain ⟨test, -, proposes⟩ := Result.bind_eq_ok.mp proposes
  obtain ⟨apply, compiles, proposes⟩ := Result.bind_eq_ok.mp proposes
  obtain ⟨first, locates, proposes⟩ := Result.bind_eq_ok.mp proposes
  cases first with
  | none =>
      exact plain_upsertFromUpdate isUpdate isFilter compiles proposes
  | some located =>
      obtain ⟨pending, prepares, proposes⟩ := Result.bind_eq_ok.mp proposes
      have clean := plain.located (isLocated_of_locate locates)
      cases pending with
      | none =>
          rw [← Except.ok.inj proposes]
          simp [Proposal.nothing]
      | some prepared =>
          exact plain_replacement
            (plain_prepareUpdate isUpdate compiles clean prepares) proposes

/-- One candidate in the loop of `updateMany`. -/
theorem plain_collectUpdate
    {update : Document}
    {apply : CompiledUpdate}
    {indexed : Bool}
    {test : CompiledFilter}
    {candidate : JsString × Bytes}
    {updates : PendingUpdates}
    (isUpdate : CleanUpdate update)
    (compiles : compileUpdate update = .ok apply)
    (plain : PlainEncoding candidate.2)
    (collects : collectUpdate indexed test apply candidate = .ok updates) :
    ∀ entry ∈ updates.pending, PlainEncoding entry.2 := by
  obtain ⟨key, encoded⟩ := candidate
  unfold collectUpdate at collects
  obtain ⟨document, decodes, collects⟩ := Result.bind_eq_ok.mp collects
  have clean := plain.clean (decodes_of_lift decodes)
  cases passes : test document with
  | false =>
      simp only [passes, Bool.not_false, if_true] at collects
      obtain rfl := Except.ok.inj collects
      simp
  | true =>
      simp only [passes, Bool.not_true, Bool.false_eq_true,
        if_false] at collects
      obtain ⟨pending, prepares, collects⟩ := Result.bind_eq_ok.mp collects
      cases pending with
      | none =>
          obtain rfl := Except.ok.inj collects
          simp
      | some prepared =>
          have isPlain := plain_prepareUpdate isUpdate compiles clean prepares
          cases indexed with
          | false =>
              obtain rfl := Except.ok.inj collects
              simpa using isPlain
          | true =>
              obtain ⟨after, -, same⟩ := Result.bind_eq_ok.mp collects
              obtain rfl := Except.ok.inj same
              simpa using isPlain

/-- The loop of `updateMany` collects plain encodings. -/
theorem plain_collectUpdates
    {update : Document}
    {apply : CompiledUpdate}
    {indexed : Bool}
    {test : CompiledFilter}
    {entries : List (JsString × Bytes)}
    {updates : PendingUpdates}
    (isUpdate : CleanUpdate update)
    (compiles : compileUpdate update = .ok apply)
    (plain : ∀ entry ∈ entries, PlainEncoding entry.2)
    (collects : collectUpdates indexed test apply entries = .ok updates) :
    ∀ entry ∈ updates.pending, PlainEncoding entry.2 := by
  induction entries generalizing updates with
  | nil =>
      obtain rfl := Except.ok.inj collects
      simp
  | cons entry rest inductionHypothesis =>
      obtain ⟨isEntry, isRest⟩ := List.forall_mem_cons.mp plain
      obtain ⟨first, isFirst, collects⟩ := Result.bind_eq_ok.mp collects
      obtain ⟨later, isLater, same⟩ := Result.bind_eq_ok.mp collects
      obtain rfl := Except.ok.inj same
      intro pending member
      rcases List.mem_append.mp member with inFirst | inLater
      · exact plain_collectUpdate isUpdate compiles isEntry isFirst pending
          inFirst
      · exact inductionHypothesis isRest isLater pending inLater

/-- `updateMany` puts plain encodings. -/
theorem plain_updateMany
    {filter update : Document}
    {upserts : Bool}
    {generated : CustomId}
    (plain : collection.Plain)
    (isUpdate : CleanUpdate update)
    (isFilter : upserts = true → CleanFilter filter)
    (proposes :
      collection.proposeUpdateMany filter update upserts generated =
        .ok proposal) :
    ∀ operation ∈ proposal.operations, operation.Plain := by
  obtain ⟨test, -, proposes⟩ := Result.bind_eq_ok.mp proposes
  obtain ⟨apply, compiles, proposes⟩ := Result.bind_eq_ok.mp proposes
  obtain ⟨updates, collects, proposes⟩ := Result.bind_eq_ok.mp proposes
  split_ifs at proposes
  · exact plain_upsertFromUpdate isUpdate isFilter compiles proposes
  · rw [← Except.ok.inj proposes, List.forall_mem_map]
    exact plain_collectUpdates isUpdate compiles
      (fun entry member => plain entry (mem_candidates member)) collects

/-- The document that `replaceOne` stores is clean. -/
theorem clean_replacementFor
    {existing replacement document : Document}
    (isExisting : (DocumentValue.document existing).Clean)
    (clean : (DocumentValue.document replacement).Clean)
    (replaces : replacementFor existing replacement = .ok document) :
    (DocumentValue.document document).Clean := by
  unfold replacementFor at replaces
  split at replaces
  · cases replaces
  · rename_i existingId found
    have isId := clean_of_get? isExisting found
    split at replaces
    · obtain rfl := Except.ok.inj replaces
      exact clean_set clean idField_unmarked isId
    · split_ifs at replaces
      obtain rfl := Except.ok.inj replaces
      exact clean_set clean idField_unmarked isId
    · cases replaces

/-- The document that an upsert of `replaceOne` inserts is clean. -/
theorem clean_upsertReplacement
    {filter replacement document : Document}
    (clean : (DocumentValue.document replacement).Clean)
    (replaces : upsertReplacement filter replacement = .ok document) :
    (DocumentValue.document document).Clean := by
  unfold upsertReplacement at replaces
  split at replaces
  · split_ifs at replaces
    obtain rfl := Except.ok.inj replaces
    exact clean
  · obtain rfl := Except.ok.inj replaces
    exact clean_set clean idField_unmarked (clean_customId _)
  · obtain rfl := Except.ok.inj replaces
    exact clean

/-- `replaceOne` puts a plain encoding. -/
theorem plain_replaceOne
    {filter replacement : Document}
    {upserts : Bool}
    {generated : CustomId}
    (plain : collection.Plain)
    (clean : (DocumentValue.document replacement).Clean)
    (proposes :
      collection.proposeReplaceOne filter replacement upserts generated =
        .ok proposal) :
    ∀ operation ∈ proposal.operations, operation.Plain := by
  obtain ⟨test, -, proposes⟩ := Result.bind_eq_ok.mp proposes
  obtain ⟨_, -, proposes⟩ := Result.bind_eq_ok.mp proposes
  obtain ⟨first, locates, proposes⟩ := Result.bind_eq_ok.mp proposes
  cases first with
  | none =>
      simp only at proposes
      split_ifs at proposes
      · obtain ⟨document, replaces, inserts⟩ := Result.bind_eq_ok.mp proposes
        exact plain_insert (clean_upsertReplacement clean replaces) inserts
      · rw [← Except.ok.inj proposes]
        simp [Proposal.nothing]
  | some located =>
      obtain ⟨document, replaces, proposes⟩ := Result.bind_eq_ok.mp proposes
      obtain ⟨encoded, encodes, proposes⟩ := Result.bind_eq_ok.mp proposes
      have isLocated := plain.located (isLocated_of_locate locates)
      split_ifs at proposes
      · rw [← Except.ok.inj proposes]
        simp [Proposal.nothing]
      · exact plain_replacement
          (plainEncoding_of_encoded
            (clean_replacementFor isLocated clean replaces) encodes) proposes

/-- What a clean call proposes puts no byte order marks. -/
theorem plain_of_propose
    {call : WriteCall}
    (plain : collection.Plain)
    (clean : call.Clean)
    (proposes : collection.propose call = some (.ok proposal)) :
    ∀ operation ∈ proposal.operations, operation.Plain := by
  cases call with
  | insertOne generated document =>
      exact plain_insert clean (Option.some.inj proposes)
  | insertMany generated documents =>
      cases proposes
  | updateOne filter update upserts generated =>
      exact plain_updateOne plain clean.1 clean.2 (Option.some.inj proposes)
  | updateMany filter update upserts generated =>
      exact plain_updateMany plain clean.1 clean.2 (Option.some.inj proposes)
  | replaceOne filter replacement upserts generated =>
      exact plain_replaceOne plain clean (Option.some.inj proposes)
  | deleteOne filter =>
      obtain ⟨test, -, proposed⟩ :=
        Result.bind_eq_ok.mp (Option.some.inj proposes)
      obtain ⟨first, -, proposed⟩ := Result.bind_eq_ok.mp proposed
      cases first with
      | none =>
          rw [← Except.ok.inj proposed]
          simp [Proposal.nothing]
      | some located =>
          rw [← Except.ok.inj proposed, List.forall_mem_singleton]
          trivial
  | deleteMany filter =>
      obtain ⟨test, -, proposed⟩ :=
        Result.bind_eq_ok.mp (Option.some.inj proposes)
      obtain ⟨located, -, proposed⟩ := Result.bind_eq_ok.mp proposed
      rw [← Except.ok.inj proposed, List.forall_mem_map]
      exact fun _ _ => trivial
  | createIndex input =>
      cases proposes
  | dropIndex name =>
      cases proposes

/-- Carrying out plain operations keeps a collection plain. -/
theorem plain_carryOut
    {operations : List JournalOperation}
    (plain : collection.Plain)
    (operationsPlain : ∀ operation ∈ operations, operation.Plain) :
    (collection.carryOut operations).Plain := by
  induction operations generalizing collection with
  | nil =>
      exact plain
  | cons operation rest inductionHypothesis =>
      rw [List.forall_mem_cons] at operationsPlain
      refine inductionHypothesis ?_ operationsPlain.2
      cases operation with
      | put key encoded =>
          intro entry member
          rw [JournalOperation.carryOut, put_documents,
            JsMap.mem_entries_set] at member
          rcases member with rfl | ⟨-, old⟩
          · exact operationsPlain.1
          · exact plain entry old
      | delete key =>
          intro entry member
          exact plain entry (JsMap.mem_entries_delete.mp member).2
      | createIndex spec =>
          exact plain
      | dropIndex name =>
          exact plain

/-- The last part of a write, whatever the journal answers. -/
theorem plain_commit
    {α : Type}
    {undo : List UndoStep}
    {operations : List JournalOperation}
    {change : Collection → Collection}
    {result : Except Thrown α}
    (kept : tracked.Plain)
    (changed : (change tracked).Plain) :
    (tracked.commit undo operations change result).Ensures Plain := by
  unfold commit
  split_ifs
  · exact fun _ => changed
  · intro answer
    cases answer with
    | error error =>
        exact kept
    | ok _ =>
        exact changed

/-- What becomes of a plain proposal. -/
theorem plain_settle
    (plain : collection.Plain)
    (operationsPlain : ∀ operation ∈ proposal.operations, operation.Plain) :
    (collection.settle proposal).Ensures Plain := by
  unfold settle trackAndCommit trackChanges
  cases IndexSet.applyChanges collection.indexes proposal.changes with
  | mk indexes tracking =>
      have kept : Plain { collection with indexes := indexes } := plain
      cases tracking with
      | error error =>
          exact fun _ => kept
      | ok undo =>
          exact plain_commit kept (plain_carryOut kept operationsPlain)

end Proposals

section Batches

variable
  {collection : Collection}
  {generated : Nat → CustomId}

/-- An attempt to insert a clean document. -/
theorem plain_tryInsert
    {pending : List JsString}
    {generated : CustomId}
    {document : Document}
    {tracked : Collection}
    {result : Except Thrown (PreparedInsert × List UndoStep)}
    (plain : collection.Plain)
    (clean : (DocumentValue.document document).Clean)
    (tries :
      collection.tryInsert pending generated document = (tracked, result)) :
    tracked.Plain ∧
      ∀ prepared undo, result = .ok (prepared, undo) →
        PlainEncoding prepared.encoded := by
  unfold tryInsert trackInsert at tries
  cases prepares : collection.prepareInsert pending generated document with
  | error error =>
      rw [prepares] at tries
      obtain ⟨rfl, rfl⟩ := Prod.mk.inj tries
      exact ⟨plain, fun _ _ same => by cases same⟩
  | ok prepared =>
      have isPlain := plain_prepareInsert clean prepares
      have onlyThis :
          ∀ (tracking : Except Thrown (List UndoStep)) (other : PreparedInsert)
            (undo : List UndoStep),
            (tracking.map fun undo => (prepared, undo)) = .ok (other, undo) →
              PlainEncoding other.encoded := by
        intro tracking other undo same
        cases tracking with
        | error error =>
            cases same
        | ok undo =>
            obtain ⟨rfl, -⟩ := Prod.mk.inj (Except.ok.inj same)
            exact isPlain
      rw [prepares] at tries
      simp only at tries
      split_ifs at tries
      · obtain ⟨rfl, rfl⟩ := Prod.mk.inj tries
        exact ⟨plain, onlyThis _⟩
      · cases decodes : decodeDocument prepared.encoded with
        | error error =>
            rw [decodes] at tries
            obtain ⟨rfl, rfl⟩ := Prod.mk.inj tries
            exact ⟨plain, onlyThis _⟩
        | ok after =>
            rw [decodes] at tries
            obtain ⟨rfl, rfl⟩ := Prod.mk.inj tries
            exact ⟨plain, onlyThis _⟩

/-- The loop of `insertMany` accepts plain encodings. -/
theorem plain_insertLoop
    {documents : List Document}
    {index : Nat}
    {accepted : List PreparedInsert}
    {rollbacks : List (List UndoStep)}
    {final : Collection}
    {result : Except Thrown InsertBatch}
    (plain : collection.Plain)
    (clean :
      ∀ document ∈ documents, (DocumentValue.document document).Clean)
    (acceptedPlain : ∀ prepared ∈ accepted, PlainEncoding prepared.encoded)
    (loops :
      insertLoop generated documents index collection accepted rollbacks =
        (final, result)) :
    final.Plain ∧
      ∀ batch, result = .ok batch →
        ∀ prepared ∈ batch.accepted, PlainEncoding prepared.encoded := by
  induction documents generalizing index collection accepted rollbacks with
  | nil =>
      obtain ⟨rfl, rfl⟩ := Prod.mk.inj loops
      refine ⟨plain, fun batch same => ?_⟩
      rw [← Except.ok.inj same]
      exact acceptedPlain
  | cons document rest inductionHypothesis =>
      obtain ⟨isDocument, isRest⟩ := List.forall_mem_cons.mp clean
      rw [insertLoop] at loops
      split at loops
      · rename_i tracked prepared undo tries
        obtain ⟨kept, isPlain⟩ := plain_tryInsert plain isDocument tries
        refine inductionHypothesis kept isRest ?_ loops
        rw [List.forall_mem_append, List.forall_mem_singleton]
        exact ⟨acceptedPlain, isPlain prepared undo rfl⟩
      · rename_i tracked error tries
        obtain ⟨rfl, rfl⟩ := Prod.mk.inj loops
        refine ⟨(plain_tryInsert plain isDocument tries).1,
          fun batch same => ?_⟩
        rw [← Except.ok.inj same]
        exact acceptedPlain
      · rename_i tracked error _ tries
        obtain ⟨rfl, rfl⟩ := Prod.mk.inj loops
        exact ⟨(plain_tryInsert plain isDocument tries).1,
          fun _ same => by cases same⟩

/-- `insertMany` of clean documents keeps a collection plain. -/
theorem plain_insertMany
    {documents : List Document}
    (plain : collection.Plain)
    (clean :
      ∀ document ∈ documents, (DocumentValue.document document).Clean) :
    (collection.insertMany generated documents).Ensures Plain := by
  unfold insertMany
  split_ifs
  · exact fun _ => plain
  · split
    · rename_i final error loops
      exact fun _ => (plain_insertLoop plain clean (by simp) loops).1
    · rename_i final batch loops
      obtain ⟨kept, isPlain⟩ := plain_insertLoop plain clean (by simp) loops
      refine plain_commit kept ?_
      intro entry member
      rw [putAll_documents] at member
      rcases JsMap.mem_entries_foldl_set member with new | ⟨old, -⟩
      · obtain ⟨prepared, isAccepted, rfl⟩ := List.mem_map.mp new
        exact isPlain batch rfl prepared isAccepted
      · exact kept entry old

end Batches

/-- A clean call keeps a collection plain. -/
theorem plain_perform
    {collection : Collection}
    (sound : collection.Sound)
    (plain : collection.Plain)
    {call : WriteCall}
    (clean : call.Clean) :
    (collection.perform call).Ensures Plain := by
  have settles :
      ∀ proposed, collection.propose call = some proposed →
        (collection.perform call).Ensures Plain := by
    intro proposed proposes
    rw [perform_eq proposes]
    refine ensures_attempt plain fun proposal isProposal => ?_
    rw [isProposal] at proposes
    exact plain_settle plain (plain_of_propose plain clean proposes)
  cases call with
  | insertMany generated documents =>
      exact Write.ensures_map (plain_insertMany plain clean) _
  | createIndex input =>
      refine Write.ensures_map ?_ _
      refine ensures_attempt plain fun spec _ => ?_
      refine ensures_attempt plain fun result builds => ?_
      obtain ⟨built, created⟩ := result
      have isBuilt : built.Plain := by
        rcases buildIndex_cases sound builds with
          ⟨-, rfl⟩ | ⟨-, -, index, -, -, documents, -⟩
        · exact plain
        · intro entry member
          rw [documents] at member
          exact plain entry member
      cases created with
      | false =>
          exact fun _ => isBuilt
      | true =>
          intro answer
          cases answer with
          | error error =>
              exact isBuilt
          | ok _ =>
              exact isBuilt
  | dropIndex name =>
      refine Write.ensures_map ?_ _
      unfold dropIndex
      split_ifs
      · exact fun _ => plain
      · intro answer
        cases answer with
        | error error =>
            exact plain
        | ok _ =>
            exact plain
      · exact fun _ => plain
  | insertOne _ _ =>
      exact settles _ rfl
  | updateOne _ _ _ _ =>
      exact settles _ rfl
  | updateMany _ _ _ _ =>
      exact settles _ rfl
  | replaceOne _ _ _ _ =>
      exact settles _ rfl
  | deleteOne _ =>
      exact settles _ rfl
  | deleteMany _ =>
      exact settles _ rfl

/-- Clean calls keep a collection plain. -/
theorem plain_run
    {collection : Collection}
    (sound : collection.Sound)
    (plain : collection.Plain)
    {calls : List (WriteCall × Except Thrown Unit)}
    (clean : ∀ call ∈ calls, call.1.Clean) :
    (collection.run calls).Plain := by
  unfold run
  induction calls generalizing collection with
  | nil =>
      exact plain
  | cons call rest inductionHypothesis =>
      rw [List.forall_mem_cons] at clean
      exact inductionHypothesis (ensures_perform sound call.1 call.2)
        (plain_perform sound plain clean.1 call.2) clean.2

/--
Calls whose arguments have no byte order marks, in the texts and keys that they
may store and on the paths of their updates and upserts, never make a later read
fail: every entry can be read back, under its own key and with its own bytes.
-/
theorem run_readsBack_of_clean
    {calls : List (WriteCall × Except Thrown Unit)}
    (clean : ∀ call ∈ calls, call.1.Clean)
    {key : JsString}
    {encoded : Bytes}
    (stored : (key, encoded) ∈ (empty.run calls).documents.entries) :
    ReadsBack key encoded := by
  have nothing : empty.Plain := fun _ member => by cases member
  obtain ⟨source, ⟨distinct, unmarked⟩, encodes⟩ :=
    plain_run sound_empty nothing clean _ stored
  have storedAs := (sound_run sound_empty calls).stored key encoded stored
  exact (storedAs.readsBack_iff distinct encodes).mpr unmarked

/-- A path of two keys is filled in by an upsert and then by an update. -/
def cleanRun : List (WriteCall × Except Thrown Unit) :=
  [(.createIndex { field := utf16 "n" }, .ok ()),
    (.updateOne [(utf16 "n", .number (.ofInt 5))]
      [(utf16 "$push", .document [(utf16 "a.b", .string (utf16 "x"))])]
      true (plainId 1), .ok ()),
    (.updateMany []
      [(utf16 "$addToSet", .document [(utf16 "a.b", .string (utf16 "y"))])]
      false (plainId 2), .ok ())]

/-- No call of this run has a byte order mark. -/
theorem clean_cleanRun : ∀ call ∈ cleanRun, call.1.Clean := by
  simp only [cleanRun, List.forall_mem_cons]
  exact ⟨trivial, ⟨by decide +kernel, fun _ => by decide +kernel⟩,
    ⟨by decide +kernel, fun same => by cases same⟩, by simp⟩

/-- The document of the upsert after both updates. -/
def updatedDocument : Document :=
  [(utf16 "n", .number (.ofInt 5)),
    (utf16 "a",
      .document [(utf16 "b",
        .array [.string (utf16 "x"), .string (utf16 "y")])]),
    (idField, .customId (plainId 1))]

/-- The document of the upsert can be read back after both updates. -/
theorem run_readsBack_of_clean_cleanRun :
    ∃ encoded,
      (empty.run cleanRun).documents.entries =
          [((plainId 1).toHexString, encoded)] ∧
        ReadsBack (plainId 1).toHexString encoded := by
  have entries :
      (empty.run cleanRun).documents.entries =
        [((plainId 1).toHexString,
          (DocumentValue.document updatedDocument).raw)] := by
    decide +kernel
  exact ⟨_, entries,
    run_readsBack_of_clean clean_cleanRun (by rw [entries]; exact .head _)⟩

end Collection

end SinterDb
