import SinterDb.Storage.Atomicity

namespace SinterDb

open Unicode

/-!
# The `_id` that an upsert gives

`updateOne` and `updateMany` read the `_id` of a new document from the filter
with `seedDocumentFromFilter`, which knows both ways to write an equality.
`replaceOne` reads it with `instanceof CustomId`, which knows one of them.
-/

/-- The id that a filter asks for, written in one of two ways. -/
inductive Pins (filter : Document) (id : CustomId) : Prop where
  | plain (isId : Document.get? filter idField = some (.customId id))
  | equality
      (isId :
        Document.get? filter idField =
          some (.document [(utf16 "$eq", .customId id)]))

section Seeding

variable
  {filter seed result : Document}
  {assigned : List (List JsString)}

/-- The `_id` field is one segment. -/
theorem splitPath_idField : splitPath idField = [idField] := by
  decide +kernel

/-- Both ways to ask for an id are equalities with it. -/
theorem extractEquality_customId
    (id : CustomId) :
    extractEquality (.customId id) = some (.customId id) ∧
      extractEquality (.document [(utf16 "$eq", .customId id)]) =
        some (.customId id) := by
  refine ⟨rfl, ?_⟩
  have operator : startsWithDollar (utf16 "$eq") = true := by decide +kernel
  simp [extractEquality, hasOperators, operator, Document.get?]

/-- A path that does not overlap the `_id` starts with another field. -/
theorem head?_of_not_overlaps
    {segments : List JsString}
    (apart : overlaps [idField] segments = false) :
    segments.head? ≠ some idField := by
  cases segments with
  | nil =>
      simp
  | cons segment rest =>
      rintro ⟨⟩
      simp [overlaps] at apart

/-- One equality put at its path keeps the other fields. -/
theorem seed_get?
    {equality : DocumentValue}
    {segments : List JsString}
    {other : JsString}
    (seeds :
      changeParent true
          (fun key parent => .ok (Document.set parent key equality)) []
          segments seed =
        .ok result)
    (different : segments.head? ≠ some other) :
    Document.get? result other = Document.get? seed other := by
  refine changeParent_get? ?_ seeds different
  intro key document changed sets notKey
  obtain rfl := Except.ok.inj sets
  rw [Document.get?_set, if_neg notKey]

/-- Once the `_id` is assigned, no later field of the filter changes it. -/
theorem seedFields_keeps_id
    (isAssigned : [idField] ∈ assigned)
    (seeds : seedFields assigned seed filter = .ok result) :
    Document.get? result idField = Document.get? seed idField := by
  induction filter generalizing assigned seed with
  | nil =>
      obtain rfl := Except.ok.inj seeds
      rfl
  | cons field rest inductionHypothesis =>
      obtain ⟨key, value⟩ := field
      unfold seedFields at seeds
      split_ifs at seeds
      · exact inductionHypothesis isAssigned seeds
      · split at seeds
        · exact inductionHypothesis isAssigned seeds
        · simp only at seeds
          split_ifs at seeds with refused
          obtain ⟨next, assigns, seeds⟩ := Result.bind_eq_ok.mp seeds
          have apart : overlaps [idField] (splitPath key) = false := by
            simp only [Bool.or_eq_true, not_or, List.any_eq_true,
              not_exists, not_and] at refused
            exact Bool.eq_false_iff.mpr (refused.2 _ isAssigned)
          rw [inductionHypothesis (List.mem_append_left _ isAssigned) seeds,
            seed_get? assigns (head?_of_not_overlaps apart)]

/-- The seed has the id that the filter asks for. -/
theorem seedFields_id
    {value : DocumentValue}
    {id : CustomId}
    (isValue : Document.get? filter idField = some value)
    (isEquality : extractEquality value = some (.customId id))
    (seeds : seedFields assigned seed filter = .ok result) :
    Document.get? result idField = some (.customId id) := by
  induction filter generalizing assigned seed with
  | nil =>
      cases isValue
  | cons field rest inductionHypothesis =>
      obtain ⟨key, first⟩ := field
      by_cases isId : key = idField
      · subst isId
        obtain rfl : first = value := by
          simpa [Document.get?] using isValue
        unfold seedFields at seeds
        rw [if_neg (by decide +kernel), isEquality] at seeds
        simp only [splitPath_idField] at seeds
        split_ifs at seeds
        obtain ⟨next, assigns, seeds⟩ := Result.bind_eq_ok.mp seeds
        obtain rfl := Except.ok.inj assigns
        rw [seedFields_keeps_id
          (List.mem_append_right _ (List.mem_singleton_self _)) seeds,
          Document.get?_set, if_pos rfl]
      · have inRest : Document.get? rest idField = some value := by
          rw [← isValue]
          simp [Document.get?, isId]
        unfold seedFields at seeds
        split_ifs at seeds
        · exact inductionHypothesis inRest seeds
        · split at seeds
          · exact inductionHypothesis inRest seeds
          · simp only at seeds
            split_ifs at seeds
            obtain ⟨next, -, seeds⟩ := Result.bind_eq_ok.mp seeds
            exact inductionHypothesis inRest seeds

/-- The document that an update inserts has the id that the filter asks for. -/
theorem seed_id
    {update document : Document}
    {apply : CompiledUpdate}
    {id : CustomId}
    (pins : Pins filter id)
    (compiles : compileUpdate update = .ok apply)
    (seeds : seedDocumentFromFilter filter >>= apply = .ok document) :
    Document.get? document idField = some (.customId id) := by
  obtain ⟨seed, isSeed, applies⟩ := Result.bind_eq_ok.mp seeds
  rw [compileUpdate_keeps_id compiles applies]
  cases pins with
  | plain isId =>
      exact seedFields_id isId (extractEquality_customId id).1 isSeed
  | equality isId =>
      exact seedFields_id isId (extractEquality_customId id).2 isSeed

end Seeding

/-- What one insertion leaves: a document with the id under the key of it. -/
def Collection.Adds
    (collection : Collection)
    (id : CustomId)
    (after : Collection) : Prop :=
  ∃ document encoded,
    encodeDocument document = .ok encoded ∧
      Document.get? document idField = some (.customId id) ∧
      id.toHexString ∉ collection.documents.keys ∧
      after.documents = collection.documents.set id.toHexString encoded

/-- An insertion of a document.  While there are indexes, what is stored can be
decoded. -/
def Collection.Inserts
    (collection : Collection)
    (id : CustomId)
    (document : Document)
    (after : Collection) : Prop :=
  ∃ encoded,
    encodeDocument document = .ok encoded ∧
      Document.get? document idField = some (.customId id) ∧
      id.toHexString ∉ collection.documents.keys ∧
      after.documents = collection.documents.set id.toHexString encoded ∧
      (IndexSet.isEmpty after.indexes = false →
        ∃ decoded, decodeDocument encoded = .ok decoded)

/-- How a write that may upsert ends: it keeps the stored keys and reports no
new id, or it inserts an allowed document and reports its id. -/
def Upserting
    (collection : Collection)
    (allowed : CustomId → Document → Prop)
    (write : Write StorageUpdateResult) : Prop :=
  ∀ answer,
    ((write.run answer).1.documents.keys = collection.documents.keys ∧
        ∀ result, (write.run answer).2 = .ok result →
          result.upsertedId = none) ∨
      ∃ id document, allowed id document ∧
        (write.run answer).2 = .ok ⟨0, 0, some id⟩ ∧
        collection.Inserts id document (write.run answer).1

namespace Collection

/-- A document with the id is added by its insertion. -/
theorem Inserts.adds
    {collection after : Collection}
    {id : CustomId}
    {document : Document}
    (inserts : collection.Inserts id document after) :
    collection.Adds id after := by
  obtain ⟨encoded, encodes, hasId, fresh, added, -⟩ := inserts
  exact ⟨document, encoded, encodes, hasId, fresh, added⟩

/-- Every candidate can be decoded, and none matches. -/
def NoCandidate
    (collection : Collection)
    (filter : Document)
    (test : CompiledFilter) : Prop :=
  ∀ entry ∈ collection.candidates filter,
    ∃ document, decodeDocument entry.2 = .ok document ∧
      test document = false

/-- The write finds no document to change. -/
def Unmatched
    (collection : Collection)
    (filter : Document)
    (test : CompiledFilter) : Prop :=
  collection.locate filter test = .ok none ∨
    collection.NoCandidate filter test

section Writing

variable
  {collection : Collection}
  {allowed : CustomId → Document → Prop}

/-- A write that changes nothing and reports no id. -/
theorem upserting_done
    {result : StorageUpdateResult}
    (reportsNone : result.upsertedId = none) :
    Upserting collection allowed (.done collection (.ok result)) := by
  intro answer
  refine .inl ⟨rfl, ?_⟩
  rintro other ⟨⟩
  exact reportsNone

/-- A write that may stop early. -/
theorem upserting_attempt
    {α : Type}
    {attempted : Except Thrown α}
    {next : α → Write StorageUpdateResult}
    (later :
      ∀ value, attempted = .ok value →
        Upserting collection allowed (next value)) :
    Upserting collection allowed (collection.attempt attempted next) := by
  cases attempted with
  | error error =>
      exact fun answer => .inl ⟨rfl, nofun⟩
  | ok value =>
      exact later value rfl

/-- Tracked changes, and a change of documents that keeps the stored keys. -/
theorem upserting_trackAndCommit
    {changes : List DocumentChange}
    {operations : List JournalOperation}
    {change : Collection → Collection}
    {result : StorageUpdateResult}
    (reportsNone : result.upsertedId = none)
    (keeps :
      ∀ tracked, tracked.documents = collection.documents →
        (change tracked).documents.keys = collection.documents.keys) :
    Upserting collection allowed
      (collection.trackAndCommit changes operations change result) := by
  have reports :
      ∀ other, (Except.ok result : Except Thrown _) = .ok other →
        other.upsertedId = none := by
    rintro other ⟨⟩
    exact reportsNone
  intro answer
  left
  unfold trackAndCommit
  split
  · rename_i tracked error tracks
    rw [(trackChanges_eq tracks).1]
    exact ⟨rfl, nofun⟩
  · rename_i tracked undo tracks
    have documents : tracked.documents = collection.documents := by
      rw [(trackChanges_eq tracks).1]
    unfold commit
    split_ifs
    · exact ⟨keeps tracked documents, reports⟩
    · cases answer with
      | error error =>
          exact ⟨congrArg JsMap.keys documents, nofun⟩
      | ok _ =>
          exact ⟨keeps tracked documents, reports⟩

/-- What a prepared insert inserts. -/
theorem inserts_of_prepared
    {generated : CustomId}
    {document : Document}
    {prepared : PreparedInsert}
    {after : Collection}
    (prepares :
      collection.prepareInsert [] generated document = .ok prepared)
    (documents :
      after.documents =
        collection.documents.set prepared.key prepared.encoded)
    (decodes :
      IndexSet.isEmpty after.indexes = false →
        ∃ decoded, decodeDocument prepared.encoded = .ok decoded) :
    resolveDocumentId generated document = .ok prepared.id ∧
      collection.Inserts prepared.id
        (Document.set document idField (.customId prepared.id)) after := by
  have fresh := (prepareInsert_ok prepares).1.fresh
  obtain ⟨id, resolves, prepares⟩ := Result.bind_eq_ok.mp prepares
  simp only at prepares
  split_ifs at prepares
  · cases prepares
  · obtain ⟨encoded, encodes, same⟩ := Result.bind_eq_ok.mp prepares
    obtain rfl := Except.ok.inj same
    refine ⟨resolves, encoded, ?_, ?_, fresh, documents, decodes⟩
    · unfold encodeStoredDocument at encodes
      split at encodes
      · rename_i bytes isEncoded
        rw [isEncoded, Except.ok.inj encodes]
      · cases encodes
    · rw [Document.get?_set, if_pos rfl]

/-- An insert that is tracked can be decoded while there are indexes. -/
theorem decodes_of_trackInsert
    {prepared : PreparedInsert}
    {tracked : Collection}
    {undo : List UndoStep}
    (tracks : collection.trackInsert prepared = (tracked, .ok undo))
    (indexed : IndexSet.isEmpty tracked.indexes = false) :
    ∃ decoded, decodeDocument prepared.encoded = .ok decoded := by
  unfold trackInsert at tracks
  split_ifs at tracks with noIndexes
  · obtain ⟨rfl, -⟩ := Prod.mk.inj tracks
    rw [noIndexes] at indexed
    cases indexed
  · split at tracks
    · cases tracks
    · rename_i document decodes
      exact ⟨document, decodes⟩

/-- The upsert of a document that is allowed. -/
theorem upserting_upsert
    {generated : CustomId}
    {document : Document}
    (allows :
      ∀ id, resolveDocumentId generated document = .ok id →
        allowed id (Document.set document idField (.customId id))) :
    Upserting collection allowed (collection.upsert generated document) := by
  intro answer
  unfold upsert insertOne
  cases tries : collection.tryInsert [] generated document with
  | mk tracked attempted =>
      have shape := tryInsert_shape tries
      cases attempted with
      | error error =>
          refine .inl ⟨?_, nofun⟩
          change tracked.documents.keys = _
          rw [shape]
      | ok outcome =>
          obtain ⟨prepared, undo⟩ := outcome
          rcases tryInsert_cases tries with
            ⟨-, _, isError⟩ | ⟨found, tracking, prepares, tracks, isResult⟩
          · cases isError
          · cases tracking with
            | error error =>
                cases isResult
            | ok steps =>
                obtain ⟨rfl, rfl⟩ := Prod.mk.inj (Except.ok.inj isResult)
                cases answer with
                | error error =>
                    refine .inl ⟨?_, nofun⟩
                    change tracked.documents.keys = _
                    rw [shape]
                | ok _ =>
                    obtain ⟨resolves, inserts⟩ :=
                      @inserts_of_prepared collection _ _ _
                        (tracked.put prepared.key prepared.encoded) prepares
                        (by rw [put_documents, shape])
                        (by
                          rw [put_indexes]
                          exact decodes_of_trackInsert tracks)
                    exact .inr ⟨prepared.id, _, allows _ resolves, rfl,
                      inserts⟩

/-- One stored document replaced by another encoding. -/
theorem upserting_replaceStored
    {located : LocatedDocument}
    (isLocated : collection.IsLocated located)
    (encoded : Bytes) :
    Upserting collection allowed
      (collection.replaceStored located encoded) := by
  refine upserting_attempt fun after _ => ?_
  refine upserting_trackAndCommit rfl fun tracked documents => ?_
  rw [put_documents, documents]
  exact JsMap.keys_set_of_mem
    (List.mem_map_of_mem (f := Prod.fst) isLocated.stored) encoded

/-- The update of a document that was not found. -/
theorem upserting_upsertFromUpdate
    {filter : Document}
    {apply : CompiledUpdate}
    {generated : CustomId}
    (allows :
      ∀ document id, seedDocumentFromFilter filter >>= apply = .ok document →
        resolveDocumentId generated document = .ok id →
        allowed id (Document.set document idField (.customId id)))
    (upserts : Bool) :
    Upserting collection allowed
      (collection.upsertFromUpdate filter apply upserts generated) := by
  unfold upsertFromUpdate
  split_ifs
  · exact upserting_attempt fun document seeds =>
      upserting_upsert fun id => allows document id seeds
  · exact upserting_done rfl

/-- `updateOne` inserts what it makes of the filter and the update. -/
theorem upserting_updateOne
    {filter update : Document}
    {generated : CustomId}
    (allows :
      ∀ test apply document id, compileFilter filter = .ok test →
        compileUpdate update = .ok apply →
        collection.locate filter test = .ok none →
        seedDocumentFromFilter filter >>= apply = .ok document →
        resolveDocumentId generated document = .ok id →
        allowed id (Document.set document idField (.customId id)))
    (upserts : Bool) :
    Upserting collection allowed
      (collection.updateOne filter update upserts generated) := by
  refine upserting_attempt fun test compilesFilter => ?_
  refine upserting_attempt fun apply compiles => ?_
  refine upserting_attempt fun located finds => ?_
  cases located with
  | none =>
      exact upserting_upsertFromUpdate
        (fun document id =>
          allows test apply document id compilesFilter compiles finds)
        upserts
  | some located =>
      refine upserting_attempt fun pending _ => ?_
      cases pending with
      | none =>
          exact upserting_done rfl
      | some prepared =>
          exact upserting_replaceStored (isLocated_of_locate finds) _

/-- A prepared update is for the document it was prepared from. -/
theorem key_of_prepareUpdate
    {located : LocatedDocument}
    {apply : CompiledUpdate}
    {prepared : JsString × Bytes}
    (prepares : prepareUpdate located apply = .ok (some prepared)) :
    prepared.1 = located.key := by
  obtain ⟨_, -, prepares⟩ := Result.bind_eq_ok.mp prepares
  obtain ⟨_, -, prepares⟩ := Result.bind_eq_ok.mp prepares
  have isPrepared := Except.ok.inj prepares
  split_ifs at isPrepared
  rw [← Option.some.inj isPrepared]

/-- One candidate in the loop of `updateMany` is updated under its key. -/
theorem key_of_collectUpdate
    {indexed : Bool}
    {test : CompiledFilter}
    {apply : CompiledUpdate}
    {candidate entry : JsString × Bytes}
    {updates : PendingUpdates}
    (collects : collectUpdate indexed test apply candidate = .ok updates)
    (member : entry ∈ updates.pending) :
    entry.1 = candidate.1 := by
  unfold collectUpdate at collects
  obtain ⟨document, -, collects⟩ := Result.bind_eq_ok.mp collects
  cases passes : test document with
  | false =>
      simp only [passes, Bool.not_false, if_true] at collects
      obtain rfl := Except.ok.inj collects
      cases member
  | true =>
      simp only [passes, Bool.not_true, Bool.false_eq_true,
        if_false] at collects
      obtain ⟨pending, prepares, collects⟩ := Result.bind_eq_ok.mp collects
      cases pending with
      | none =>
          obtain rfl := Except.ok.inj collects
          cases member
      | some prepared =>
          have isKey := key_of_prepareUpdate prepares
          cases indexed with
          | false =>
              obtain rfl := Except.ok.inj collects
              rw [List.mem_singleton.mp member, isKey]
          | true =>
              obtain ⟨after, -, same⟩ := Result.bind_eq_ok.mp collects
              obtain rfl := Except.ok.inj same
              rw [List.mem_singleton.mp member, isKey]

/-- `updateMany` prepares new encodings for its candidates only. -/
theorem mem_of_collectUpdates
    {indexed : Bool}
    {test : CompiledFilter}
    {apply : CompiledUpdate}
    {entries : List (JsString × Bytes)}
    {updates : PendingUpdates}
    (collects : collectUpdates indexed test apply entries = .ok updates) :
    ∀ entry ∈ updates.pending, entry.1 ∈ entries.map Prod.fst := by
  induction entries generalizing updates with
  | nil =>
      obtain rfl := Except.ok.inj collects
      simp
  | cons candidate rest inductionHypothesis =>
      obtain ⟨first, isFirst, collects⟩ := Result.bind_eq_ok.mp collects
      obtain ⟨later, isLater, same⟩ := Result.bind_eq_ok.mp collects
      obtain rfl := Except.ok.inj same
      intro entry member
      rw [List.map_cons, List.mem_cons]
      rcases List.mem_append.mp member with inFirst | inLater
      · exact .inl (key_of_collectUpdate isFirst inFirst)
      · exact .inr (inductionHypothesis isLater entry inLater)

/-- Putting documents under stored keys keeps the stored keys. -/
theorem keys_putAll
    {entries : List (JsString × Bytes)}
    (stored : ∀ entry ∈ entries, entry.1 ∈ collection.documents.keys) :
    (collection.putAll entries).documents.keys =
      collection.documents.keys := by
  unfold putAll
  induction entries generalizing collection with
  | nil =>
      rfl
  | cons entry rest inductionHypothesis =>
      rw [List.forall_mem_cons] at stored
      have keys :
          (collection.put entry.1 entry.2).documents.keys =
            collection.documents.keys := by
        rw [put_documents]
        exact JsMap.keys_set_of_mem stored.1 entry.2
      rw [List.foldl_cons, inductionHypothesis, keys]
      intro later member
      rw [keys]
      exact stored.2 later member

/-- Candidates of `updateMany` of which none is counted do not match. -/
theorem unmatched_of_collectUpdates
    {indexed : Bool}
    {test : CompiledFilter}
    {apply : CompiledUpdate}
    {entries : List (JsString × Bytes)}
    {updates : PendingUpdates}
    (collects : collectUpdates indexed test apply entries = .ok updates)
    (noMatch : updates.matched = 0) :
    ∀ entry ∈ entries, ∃ document,
      decodeDocument entry.2 = .ok document ∧ test document = false := by
  induction entries generalizing updates with
  | nil =>
      nofun
  | cons candidate rest inductionHypothesis =>
      obtain ⟨first, isFirst, collects⟩ := Result.bind_eq_ok.mp collects
      obtain ⟨later, isLater, same⟩ := Result.bind_eq_ok.mp collects
      obtain rfl := Except.ok.inj same
      have counts : first.matched + later.matched = 0 := noMatch
      rw [List.forall_mem_cons]
      refine ⟨?_, inductionHypothesis isLater (by omega)⟩
      unfold collectUpdate at isFirst
      obtain ⟨document, decodes, isFirst⟩ := Result.bind_eq_ok.mp isFirst
      refine ⟨document, decodes_of_lift decodes, ?_⟩
      by_contra passes
      rw [Bool.not_eq_false] at passes
      simp only [passes, Bool.not_true, Bool.false_eq_true,
        if_false] at isFirst
      obtain ⟨pending, -, isFirst⟩ := Result.bind_eq_ok.mp isFirst
      have counted : first.matched = 1 := by
        cases pending with
        | none =>
            obtain rfl := Except.ok.inj isFirst
            rfl
        | some prepared =>
            cases indexed with
            | false =>
                obtain rfl := Except.ok.inj isFirst
                rfl
            | true =>
                obtain ⟨after, -, same⟩ := Result.bind_eq_ok.mp isFirst
                obtain rfl := Except.ok.inj same
                rfl
      omega

/-- `updateMany` inserts what it makes of the filter and the update. -/
theorem upserting_updateMany
    {filter update : Document}
    {generated : CustomId}
    (allows :
      ∀ test apply document id, compileFilter filter = .ok test →
        compileUpdate update = .ok apply →
        collection.NoCandidate filter test →
        seedDocumentFromFilter filter >>= apply = .ok document →
        resolveDocumentId generated document = .ok id →
        allowed id (Document.set document idField (.customId id)))
    (upserts : Bool) :
    Upserting collection allowed
      (collection.updateMany filter update upserts generated) := by
  refine upserting_attempt fun test compilesFilter => ?_
  refine upserting_attempt fun apply compiles => ?_
  refine upserting_attempt fun updates collects => ?_
  split_ifs with noMatch
  · exact upserting_upsertFromUpdate
      (fun document id =>
        allows test apply document id compilesFilter compiles
          (unmatched_of_collectUpdates collects noMatch))
      upserts
  · refine upserting_trackAndCommit rfl fun tracked documents => ?_
    rw [keys_putAll, documents]
    intro entry member
    rw [documents]
    obtain ⟨candidate, isCandidate, sameKey⟩ :=
      List.mem_map.mp (mem_of_collectUpdates collects entry member)
    rw [← sameKey]
    exact List.mem_map_of_mem (f := Prod.fst) (mem_candidates isCandidate)

/-- `replaceOne` inserts what it makes of the filter and the replacement. -/
theorem upserting_replaceOne
    {filter replacement : Document}
    {generated : CustomId}
    (allows :
      ∀ document id, upsertReplacement filter replacement = .ok document →
        resolveDocumentId generated document = .ok id →
        allowed id (Document.set document idField (.customId id)))
    (upserts : Bool) :
    Upserting collection allowed
      (collection.replaceOne filter replacement upserts generated) := by
  refine upserting_attempt fun test _ => ?_
  refine upserting_attempt fun _ _ => ?_
  refine upserting_attempt fun located finds => ?_
  cases located with
  | none =>
      split_ifs
      · exact upserting_attempt fun document isDocument =>
          upserting_upsert fun id => allows document id isDocument
      · exact upserting_done rfl
  | some located =>
      refine upserting_attempt fun encoded _ => ?_
      split_ifs
      · exact upserting_done rfl
      · exact upserting_replaceStored (isLocated_of_locate finds) _

end Writing

end Collection

/-- An upserting call: the operation and its update or replacement. -/
inductive Upsert where
  | updateOne (update : Document)
  | updateMany (update : Document)
  | replaceOne (replacement : Document)

namespace Upsert

/-- The write of an upserting call. -/
def write
    (filter : Document)
    (collection : Collection)
    (generated : CustomId) : Upsert → Write StorageUpdateResult
  | .updateOne update => collection.updateOne filter update true generated
  | .updateMany update => collection.updateMany filter update true generated
  | .replaceOne replacement =>
      collection.replaceOne filter replacement true generated

/-- The replacement, if there is one, has no `_id` of its own. -/
def LeavesId : Upsert → Prop
  | .replaceOne replacement => Document.get? replacement idField = none
  | _ => True

/-- The call is an update, or the filter names the id as a plain value, or the
generated id happens to be that id. -/
def Honours
    (filter : Document)
    (id generated : CustomId)
    (upsert : Upsert) : Prop :=
  match upsert with
  | .replaceOne _ =>
      Document.get? filter idField = some (.customId id) ∨ generated = id
  | _ => True

/-- The collection after the same call made several times. -/
def repeated
    (filter : Document)
    (upsert : Upsert)
    (collection : Collection)
    (calls : List (CustomId × Except Thrown Unit)) : Collection :=
  calls.foldl
    (fun collection call =>
      ((upsert.write filter collection call.1).run call.2).1)
    collection

section Ids

variable
  {filter : Document}
  {id : CustomId}
  {upsert : Upsert}

/-- A replacement whose filter writes the id with an operator gets the
generated id. -/
theorem upserting_generated
    {replacement : Document}
    (isId :
      Document.get? filter idField =
        some (.document [(utf16 "$eq", .customId id)]))
    (leaves : Document.get? replacement idField = none)
    (generated : CustomId)
    (collection : Collection) :
    Upserting collection (fun new _ => new = generated)
      (collection.replaceOne filter replacement true generated) := by
  refine Collection.upserting_replaceOne ?_ true
  intro document new isDocument resolves
  unfold Collection.upsertReplacement at isDocument
  rw [isId, leaves] at isDocument
  obtain rfl := Except.ok.inj isDocument
  unfold resolveDocumentId at resolves
  rw [leaves] at resolves
  exact (Except.ok.inj resolves).symm

/-- A call that honours the id of the filter inserts under it only. -/
theorem upserting_of_honours
    (pins : Pins filter id)
    (leaves : upsert.LeavesId)
    {generated : CustomId}
    (honours : upsert.Honours filter id generated)
    (collection : Collection) :
    Upserting collection (fun new _ => new = id)
      (upsert.write filter collection generated) := by
  have allows :
      ∀ {update : Document}, ∀ apply document new,
        compileUpdate update = .ok apply →
        seedDocumentFromFilter filter >>= apply = .ok document →
        resolveDocumentId generated document = .ok new → new = id := by
    intro update apply document new compiles seeds resolves
    unfold resolveDocumentId at resolves
    rw [seed_id pins compiles seeds] at resolves
    exact (Except.ok.inj resolves).symm
  cases upsert with
  | updateOne update =>
      exact Collection.upserting_updateOne
        (fun _ apply document new _ compiles _ =>
          allows apply document new compiles) true
  | updateMany update =>
      exact Collection.upserting_updateMany
        (fun _ apply document new _ compiles _ =>
          allows apply document new compiles) true
  | replaceOne replacement =>
      have leaves : Document.get? replacement idField = none := leaves
      cases pins with
      | plain isId =>
          refine Collection.upserting_replaceOne ?_ true
          intro document new isDocument resolves
          unfold Collection.upsertReplacement at isDocument
          rw [isId, leaves] at isDocument
          obtain rfl := Except.ok.inj isDocument
          unfold resolveDocumentId at resolves
          rw [Document.get?_set, if_pos rfl] at resolves
          exact (Except.ok.inj resolves).symm
      | equality isId =>
          rcases honours with isPlain | rfl
          · rw [isId] at isPlain
            cases isPlain
          · exact upserting_generated isId leaves generated collection

/-- Repeated calls that honour the id add one document at most. -/
theorem keys_repeated
    (pins : Pins filter id)
    (leaves : upsert.LeavesId)
    {calls : List (CustomId × Except Thrown Unit)}
    (honours : ∀ call ∈ calls, upsert.Honours filter id call.1)
    (collection : Collection) :
    (upsert.repeated filter collection calls).documents.keys =
        collection.documents.keys ∨
      id.toHexString ∉ collection.documents.keys ∧
        (upsert.repeated filter collection calls).documents.keys =
          collection.documents.keys ++ [id.toHexString] := by
  unfold repeated
  induction calls generalizing collection with
  | nil =>
      exact .inl rfl
  | cons call rest inductionHypothesis =>
      rw [List.forall_mem_cons] at honours
      rw [List.foldl_cons]
      have later :=
        inductionHypothesis honours.2
          ((upsert.write filter collection call.1).run call.2).1
      rcases upserting_of_honours pins leaves honours.1 collection call.2 with
        ⟨keeps, -⟩ | ⟨new, _, rfl, -, encoded, -, -, fresh, added, -⟩
      · rw [keeps] at later
        exact later
      · have keys := congrArg JsMap.keys added
        rw [JsMap.keys_set_of_not_mem fresh] at keys
        -- The key is stored from now on, so no later call can add it again.
        rcases later with keeps | ⟨absent, -⟩
        · exact .inr ⟨fresh, keeps.trans keys⟩
        · rw [keys] at absent
          exact absurd (List.mem_append_right _ (List.mem_singleton_self _))
            absent

/-- An upsert that inserts gives the new document the id of its filter exactly
when it honours that id, and calls that honour it add one document at most. -/
theorem upsert_uses_pinned_id_iff
    (pins : Pins filter id)
    (leaves : upsert.LeavesId) :
    (∀ collection generated answer result new,
      ((upsert.write filter collection generated).run answer).2 =
          .ok result →
        result.upsertedId = some new →
        (new = id ∧
            collection.Adds id
              ((upsert.write filter collection generated).run answer).1 ↔
          upsert.Honours filter id generated)) ∧
      ∀ collection calls,
        (∀ call ∈ calls, upsert.Honours filter id call.1) →
          (upsert.repeated filter collection calls).documents.keys =
              collection.documents.keys ∨
            id.toHexString ∉ collection.documents.keys ∧
              (upsert.repeated filter collection calls).documents.keys =
                collection.documents.keys ++ [id.toHexString] := by
  refine ⟨?_, fun collection calls honours =>
    keys_repeated pins leaves honours collection⟩
  intro collection generated answer result new returns reports
  constructor
  · rintro ⟨rfl, -⟩
    cases upsert with
    | updateOne update =>
        trivial
    | updateMany update =>
        trivial
    | replaceOne replacement =>
        cases pins with
        | plain isId =>
            exact .inl isId
        | equality isId =>
            right
            rcases upserting_generated isId leaves generated collection
                answer with ⟨-, reportsNone⟩ | ⟨_, _, rfl, reported, -⟩
            · rw [reportsNone result returns] at reports
              cases reports
            · obtain rfl := Except.ok.inj (reported.symm.trans returns)
              exact Option.some.inj reports
  · intro honours
    rcases upserting_of_honours pins leaves honours collection answer with
      ⟨-, reportsNone⟩ | ⟨_, _, rfl, reported, inserts⟩
    · rw [reportsNone result returns] at reports
      cases reports
    · obtain rfl := Except.ok.inj (reported.symm.trans returns)
      exact ⟨(Option.some.inj reports).symm, inserts.adds⟩

end Ids

/-- A filter that names an id as a plain value. -/
def plainFilter : Document :=
  [(idField, .customId (Collection.plainId 1))]

/-- A filter that names an id with an operator. -/
def equalityFilter : Document :=
  [(idField, .document [(utf16 "$eq", .customId (Collection.plainId 1))])]

/-- An empty replacement gets the id that the filter names as a plain value. -/
theorem upsert_uses_pinned_id_plain :
    Collection.empty.Adds (Collection.plainId 1)
      (((replaceOne []).write plainFilter .empty
        (Collection.plainId 2)).run (.ok ())).1 := by
  have pins : Pins plainFilter (Collection.plainId 1) :=
    .plain (by decide +kernel)
  have returns :
      (((replaceOne []).write plainFilter .empty
          (Collection.plainId 2)).run (.ok ())).2 =
        .ok ⟨0, 0, some (Collection.plainId 1)⟩ := by
    decide +kernel
  have uses := (@upsert_uses_pinned_id_iff _ _ (replaceOne []) pins rfl).1
  exact ((uses _ _ _ _ _ returns rfl).mpr (.inl (by decide +kernel))).2

/-- An empty replacement gets a generated id when the filter names the id with
an operator, and the same call again adds a second document. -/
theorem not_upsert_uses_pinned_id :
    (¬ ∀ filter id (upsert : Upsert) collection generated answer result new,
      Pins filter id → upsert.LeavesId →
        ((upsert.write filter collection generated).run answer).2 =
            .ok result →
          result.upsertedId = some new → new = id) ∧
      ¬ ∀ value id (upsert : Upsert) collection calls,
        Pins [(idField, value)] id → upsert.LeavesId →
          (upsert.repeated [(idField, value)] collection
              calls).documents.keys.length ≤
            collection.documents.keys.length + 1 := by
  have pins : Pins equalityFilter (Collection.plainId 1) :=
    .equality (by decide +kernel)
  constructor
  · intro uses
    have returns :
        (((replaceOne []).write equalityFilter .empty
            (Collection.plainId 2)).run (.ok ())).2 =
          .ok ⟨0, 0, some (Collection.plainId 2)⟩ := by
      decide +kernel
    have same := uses _ _ (replaceOne []) _ _ _ _ _ pins rfl returns rfl
    exact absurd same (by decide +kernel)
  · intro addsOne
    have fewer :=
      addsOne _ _ (replaceOne []) .empty
        [(Collection.plainId 2, .ok ()), (Collection.plainId 3, .ok ())]
        pins rfl
    exact absurd fewer (by decide +kernel)

end Upsert

end SinterDb
