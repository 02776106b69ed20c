import SinterDb.Storage.FindScan

namespace SinterDb

open Unicode

/-!
# Indexes change no result

In every state that writes lead to, reads yield what the plain scan yields, and
the writes on one document act on the first document of that scan.
-/

namespace Collection

variable
  {α β : Type}
  {collection : Collection}
  {filter : Document}
  {test : CompiledFilter}

/-- `find` yields the documents of the plain scan. -/
theorem consume_find
    (sound : collection.Sound)
    (decodes : AllDecode collection.documents.entries)
    {options : StorageFindOptions}
    {scan : Scan}
    (finds : find filter options = .ok scan) :
    ∃ documents, collection.plainScan filter options = .ok documents ∧
      ∀ calls,
        scan.consume collection calls = .ok (documents.take calls) := by
  unfold find at finds
  obtain ⟨test, compiles, finds⟩ := Result.bind_eq_ok.mp finds
  obtain ⟨sorter, isSorter, finds⟩ := Result.bind_eq_ok.mp finds
  obtain ⟨skip, isSkip, finds⟩ := Result.bind_eq_ok.mp finds
  obtain ⟨limit, isLimit, finds⟩ := Result.bind_eq_ok.mp finds
  obtain rfl := Except.ok.inj finds
  unfold plainScan
  rw [compiles, isSorter, isSkip, isLimit]
  refine ⟨_, rfl, ?_⟩
  intro calls
  cases calls with
  | zero =>
      rfl
  | succ calls =>
      cases sorter with
      | none =>
          have inside :
              AllDecode ((collection.remaining
                (collection.openCandidates filter)).map Prod.fst) := by
            rw [remaining_openCandidates]
            exact allDecode_candidates decodes
          rw [@Scan.consume_advance _ _ _ _ 0 0 inside rfl
            fun _ _ => Scan.consume_unsorted calls]
          simp only [Scan.pending, remaining_openCandidates,
            matching_candidates sound compiles]
          cases limit <;> rfl
      | some sort =>
          have found :
              allMatches test (collection.candidates filter) =
                .ok (matching test collection.documents.entries) := by
            rw [allMatches_eq (allDecode_candidates decodes),
              matching_candidates sound compiles]
          have steps :
              (Scan.mk filter test (some sort) skip limit .waiting).step
                  collection =
                Scan.nextSorted (Scan.slice
                  ⟨filter, test, some sort, skip, limit, .waiting⟩
                  (sort ((matching test collection.documents.entries).map
                    LocatedDocument.document))) := by
            simp only [Scan.step, found]
          rw [Scan.consume_nextSorted steps (Scan.consume_sorted calls)]
          rfl

/--
A write that acts on a given document, if there is one: it counts what it
matched, and when it changes anything, it changes that document.
-/
structure Acts
    (collection : Collection)
    (first : Option LocatedDocument)
    (matched modified : α → Nat)
    (change : LocatedDocument → JsMap JsString Bytes → Prop)
    (write : Write α) : Prop where
  counts :
    ∀ answer result, (write.run answer).2 = .ok result →
      matched result = first.toList.length
  changes :
    ∀ answer located, first = some located →
      change located (write.run answer).1.documents ∨
        ((write.run answer).1.documents = collection.documents ∧
          ∀ result, (write.run answer).2 = .ok result → modified result = 0)

/-- A document is stored as the encoding of what is made of it. -/
def StoresMade
    (collection : Collection)
    (make : Document → Except Thrown Document)
    (located : LocatedDocument)
    (after : JsMap JsString Bytes) : Prop :=
  ∃ document encoded,
    make located.document = .ok document ∧
      encodeStoredDocument document = .ok encoded ∧
        after = collection.documents.set located.key encoded

section Acting

variable
  {first : Option LocatedDocument}
  {matched modified : α → Nat}
  {change : LocatedDocument → JsMap JsString Bytes → Prop}

/-- A write that ends without changing anything. -/
theorem acts_done
    {result : Except Thrown α}
    (fits :
      ∀ value, result = .ok value →
        matched value = first.toList.length ∧ modified value = 0) :
    collection.Acts first matched modified change
      (.done collection result) where
  counts := fun _ value isValue => (fits value isValue).1
  changes := fun _ _ _ =>
    .inr ⟨rfl, fun value isValue => (fits value isValue).2⟩

/-- A write that may stop early. -/
theorem acts_attempt
    {result : Except Thrown β}
    {next : β → Write α}
    (later :
      ∀ value, result = .ok value →
        collection.Acts first matched modified change (next value)) :
    collection.Acts first matched modified change
      (collection.attempt result next) := by
  cases result with
  | error error =>
      exact acts_done (by simp)
  | ok value =>
      exact later value rfl

/-- A change of the document that is tracked and committed. -/
theorem acts_trackAndCommit
    {located : LocatedDocument}
    {changes : List DocumentChange}
    {operation : JournalOperation}
    {update : Collection → Collection}
    {result : α}
    (counts : matched result = 1)
    (changesIt :
      ∀ during : Collection, during.documents = collection.documents →
        change located (update during).documents) :
    collection.Acts (some located) matched modified change
      (collection.trackAndCommit changes [operation] update result) := by
  unfold trackAndCommit commit
  have sameDocuments :
      (collection.trackChanges changes).1.documents =
        collection.documents := rfl
  generalize collection.trackChanges changes = tracked at sameDocuments
  obtain ⟨during, error | undo⟩ := tracked
  · exact
      { counts := by rintro _ _ ⟨⟩
        changes := fun _ _ _ => .inr ⟨sameDocuments, by rintro _ ⟨⟩⟩ }
  · simp only
    rw [if_neg (by simp)]
    refine ⟨?_, ?_⟩
    · rintro (error | _) value isValue
      · cases isValue
      · obtain rfl := Except.ok.inj isValue
        exact counts
    · rintro (error | _) _ ⟨⟩
      · exact .inr ⟨sameDocuments, by rintro _ ⟨⟩⟩
      · exact .inl (changesIt during sameDocuments)

/-- Inserting counts no match. -/
theorem acts_upsert
    (generated : CustomId)
    (document : Document) :
    collection.Acts none StorageUpdateResult.matchedCount
      StorageUpdateResult.modifiedCount change
      (collection.upsert generated document) where
  counts := by
    intro answer result isResult
    unfold upsert Write.map at isResult
    cases inserts : collection.insertOne generated document with
    | done after inserted =>
        rw [inserts] at isResult
        cases inserted with
        | error error =>
            cases isResult
        | ok id =>
            obtain rfl := Except.ok.inj isResult
            rfl
    | commit during operations resume =>
        rw [inserts] at isResult
        simp only [Write.run] at isResult
        cases resumes : resume answer with
        | mk after inserted =>
            rw [resumes] at isResult
            cases inserted with
            | error error =>
                cases isResult
            | ok id =>
                obtain rfl := Except.ok.inj isResult
                rfl
  changes := by
    rintro _ _ ⟨⟩

/-- Storing what is made of a document puts its encoding. -/
theorem acts_replaceStored
    {make : Document → Except Thrown Document}
    {located : LocatedDocument}
    {document : Document}
    {encoded : Bytes}
    (makes : make located.document = .ok document)
    (encodes : encodeStoredDocument document = .ok encoded) :
    collection.Acts (some located) StorageUpdateResult.matchedCount
      StorageUpdateResult.modifiedCount (collection.StoresMade make)
      (collection.replaceStored located encoded) := by
  refine acts_attempt fun after _ => acts_trackAndCommit rfl ?_
  intro during sameDocuments
  exact ⟨document, encoded, makes, encodes, by rw [put_documents, sameDocuments]⟩

end Acting

/-- `deleteOne` acts on what `locate` finds. -/
theorem acts_deleteOne
    (compiles : compileFilter filter = .ok test)
    {first : Option LocatedDocument}
    (locates : collection.locate filter test = .ok first) :
    collection.Acts first id id
      (fun located after =>
        after = collection.documents.delete located.key)
      (collection.deleteOne filter) := by
  unfold deleteOne
  rw [compiles]
  refine acts_attempt ?_
  rintro _ ⟨⟩
  rw [locates]
  refine acts_attempt ?_
  rintro _ ⟨⟩
  cases first with
  | none =>
      refine acts_done ?_
      rintro _ ⟨⟩
      exact ⟨rfl, rfl⟩
  | some located =>
      refine acts_trackAndCommit rfl ?_
      intro during sameDocuments
      rw [remove, sameDocuments]

/-- `updateOne` acts on what `locate` finds, as the update says. -/
theorem acts_updateOne
    (compiles : compileFilter filter = .ok test)
    {first : Option LocatedDocument}
    (locates : collection.locate filter test = .ok first)
    (update : Document)
    (upserts : Bool)
    (generated : CustomId) :
    collection.Acts first StorageUpdateResult.matchedCount
      StorageUpdateResult.modifiedCount
      (collection.StoresMade fun document => do
        let apply ← compileUpdate update
        apply document)
      (collection.updateOne filter update upserts generated) := by
  unfold updateOne
  rw [compiles]
  refine acts_attempt ?_
  rintro _ ⟨⟩
  refine acts_attempt ?_
  intro apply compilesUpdate
  rw [locates]
  refine acts_attempt ?_
  rintro _ ⟨⟩
  cases first with
  | none =>
      simp only [upsertFromUpdate]
      split_ifs
      · exact acts_attempt fun document _ => acts_upsert generated document
      · refine acts_done ?_
        rintro _ ⟨⟩
        exact ⟨rfl, rfl⟩
  | some located =>
      refine acts_attempt ?_
      rintro (_ | ⟨key, encoded⟩) prepared
      · refine acts_done ?_
        rintro _ ⟨⟩
        exact ⟨rfl, rfl⟩
      · obtain ⟨document, applies, prepared⟩ := Result.bind_eq_ok.mp prepared
        obtain ⟨made, encodes, prepared⟩ := Result.bind_eq_ok.mp prepared
        have same : made = encoded := by
          split at prepared
          · cases prepared
          · cases prepared
            rfl
        subst same
        refine acts_replaceStored ?_ encodes
        rw [compilesUpdate]
        exact applies

/-- `replaceOne` acts on what `locate` finds, as the replacement says. -/
theorem acts_replaceOne
    (compiles : compileFilter filter = .ok test)
    {first : Option LocatedDocument}
    (locates : collection.locate filter test = .ok first)
    (replacement : Document)
    (upserts : Bool)
    (generated : CustomId) :
    collection.Acts first StorageUpdateResult.matchedCount
      StorageUpdateResult.modifiedCount
      (collection.StoresMade fun document =>
        replacementFor document replacement)
      (collection.replaceOne filter replacement upserts generated) := by
  unfold replaceOne
  rw [compiles]
  refine acts_attempt ?_
  rintro _ ⟨⟩
  refine acts_attempt ?_
  intro _ _
  rw [locates]
  refine acts_attempt ?_
  rintro _ ⟨⟩
  cases first with
  | none =>
      simp only
      split_ifs
      · exact acts_attempt fun document _ => acts_upsert generated document
      · refine acts_done ?_
        rintro _ ⟨⟩
        exact ⟨rfl, rfl⟩
  | some located =>
      refine acts_attempt ?_
      intro encoded encoding
      obtain ⟨document, replaces, encodes⟩ := Result.bind_eq_ok.mp encoding
      split_ifs
      · refine acts_done ?_
        rintro _ ⟨⟩
        exact ⟨rfl, rfl⟩
      · exact acts_replaceStored replaces encodes

/-- The reads and the writes on one document agree with the plain scan. -/
structure AgreesWithScan
    (collection : Collection)
    (filter : Document)
    (test : CompiledFilter) : Prop where
  find :
    ∀ options scan, find filter options = .ok scan →
      ∃ documents, collection.plainScan filter options = .ok documents ∧
        ∀ calls,
          scan.consume collection calls = .ok (documents.take calls)
  findOne :
    collection.findOne filter =
      .ok ((matching test collection.documents.entries).head?.map
        LocatedDocument.document)
  deleteOne :
    collection.Acts (matching test collection.documents.entries).head? id id
      (fun located after =>
        after = collection.documents.delete located.key)
      (collection.deleteOne filter)
  updateOne :
    ∀ update upserts generated,
      collection.Acts (matching test collection.documents.entries).head?
        StorageUpdateResult.matchedCount StorageUpdateResult.modifiedCount
        (collection.StoresMade fun document => do
          let apply ← compileUpdate update
          apply document)
        (collection.updateOne filter update upserts generated)
  replaceOne :
    ∀ replacement upserts generated,
      collection.Acts (matching test collection.documents.entries).head?
        StorageUpdateResult.matchedCount StorageUpdateResult.modifiedCount
        (collection.StoresMade fun document =>
          replacementFor document replacement)
        (collection.replaceOne filter replacement upserts generated)

/-- A document, an index, and another document. -/
def indexedRun : List (WriteCall × Except Thrown Unit) :=
  [(.insertOne (plainId 2) [(utf16 "n", .number (.ofInt 5))], .ok ()),
    (.createIndex { field := utf16 "n" }, .ok ()),
    (.insertOne (plainId 1) [(utf16 "n", .number (.ofInt 7))], .ok ())]

/-- A filter that the index narrows. -/
def rangeFilter : Document :=
  [(utf16 "n", .document [(utf16 "$gt", .number (.ofInt 5))])]

end Collection

end SinterDb
