import SinterDb.Storage.Atomicity

namespace SinterDb

open Unicode

/-!
# Unique indexes are exact

In every state of a careful run the unique indexes allow the stored documents
together, and a write is refused by one of them if and only if the documents
that it would lead to are not allowed together.
-/

namespace Collection

/-- No unique index is broken. -/
def Unique (collection : Collection) : Prop :=
  collection.indexes.Distinguishes collection.decoded

/-- The write is rejected with `DuplicateKey` before it reaches the journal. -/
def Rejected {α : Type} (write : Write α) : Prop :=
  ∃ final error, write = .done final (.error (.storage error)) ∧
    error.code = .duplicateKey

section Batches

variable
  {collection : Collection}

/-- Using the result of a write further does not reject it. -/
theorem rejected_map
    {α β : Type}
    {write : Write α}
    (use : α → β) :
    Rejected (write.map use) ↔ Rejected write := by
  cases write with
  | done final result =>
      cases result <;> simp [Rejected, Write.map, Except.map]
  | commit during operations resume =>
      simp [Rejected, Write.map]

/-- The last part of a write does not reject it. -/
theorem not_rejected_commit
    {α : Type}
    {undo : List UndoStep}
    {operations : List JournalOperation}
    {change : Collection → Collection}
    {result : α} :
    ¬ Rejected
      (collection.commit undo operations change (.ok result)) := by
  unfold commit
  split_ifs <;> simp [Rejected]

/-- The indexes accept a proposal exactly when its outcome breaks none of
them. -/
theorem trackChanges_isOk_iff
    {proposal : Proposal}
    (isExact : collection.Exact)
    (proposed :
      IndexSet.isEmpty collection.indexes = false →
        collection.Proposed proposal) :
    (collection.trackChanges proposal.changes).2.isOk = true ↔
      (collection.carryOut proposal.operations).Unique := by
  have indexes := carryOut_indexes collection proposal.operations
  cases empty : IndexSet.isEmpty collection.indexes with
  | true =>
      refine iff_of_true ?_ ?_
      · rw [trackChanges_of_isEmpty empty]
        rfl
      · refine IndexSet.distinguishes_of_isEmpty ?_ _
        rw [indexes, empty]
  | false =>
      obtain ⟨batch, fits⟩ := proposed empty
      have perm := fits.perm isExact.toSound batch
      refine (IndexSet.applyChanges_isOk_iff isExact.stored_decoded
        isExact.represents isExact.distinguishes batch).trans ?_
      unfold Unique
      rw [indexes]
      exact ⟨fun allowed => allowed.perm perm.symm,
        fun allowed => allowed.perm perm⟩

/-- A call that passes its other checks is rejected exactly when its outcome
breaks a unique index. -/
theorem rejected_perform_iff
    {call : WriteCall}
    {proposal : Proposal}
    (isExact : collection.Exact)
    (proposes : collection.propose call = some (.ok proposal)) :
    Rejected (collection.perform call) ↔
      ¬ (collection.carryOut proposal.operations).Unique := by
  rw [perform_eq proposes]
  rw [← trackChanges_isOk_iff isExact fun notEmpty =>
    proposed_of_propose isExact.toSound notEmpty proposes]
  simp only [attempt, settle, trackAndCommit]
  cases tracks : collection.trackChanges proposal.changes with
  | mk tracked tracking =>
      cases tracking with
      | error error =>
          refine iff_of_true ?_ Bool.false_ne_true
          obtain ⟨storageError, rfl, isCode⟩ :=
            IndexSet.code_of_refused (trackChanges_eq tracks).2
          exact ⟨tracked, storageError, rfl, isCode⟩
      | ok undo =>
          refine iff_of_false not_rejected_commit ?_
          simp [Except.isOk, Except.toBool]

end Batches

/-- A new index passes all checks but the one for duplicates. -/
structure Allows
    (collection : Collection)
    (input : CreateIndexInput)
    (spec : IndexSpec) : Prop where
  normalizes : normalizeIndexSpec input = .ok spec
  newName : collection.indexes.get? spec.name = none
  newField :
    ∀ index ∈ IndexSet.all collection.indexes,
      index.spec.field ≠ spec.field
  room : collection.indexes.size < maxIndexesPerCollection
  decodes : AllDecode collection.documents.entries

section Indexes

variable
  {collection : Collection}
  {input : CreateIndexInput}
  {spec : IndexSpec}

/-- A new index is a build from the decoded documents. -/
theorem Allows.create_eq
    (allows : collection.Allows input spec) :
    IndexSet.create collection.indexes spec collection.decodedEntries =
      (do
        let index ←
          (collection.decoded.map Except.ok).foldlM IndexSet.buildStep
            (FieldIndex.create spec)
        return (collection.indexes.set spec.name index.finishBulk,
          .created)) := by
  have noField :
      ((IndexSet.all collection.indexes).find? fun other =>
        other.spec.field == spec.field) = none := by
    rw [List.find?_eq_none]
    intro index member
    simpa using allows.newField index member
  unfold IndexSet.create
  simp only [allows.newName, noField, decodedEntries_eq allows.decodes]
  rw [if_neg (by have room := allows.room; omega)]

/-- A new index is rejected exactly when the stored documents break it. -/
theorem rejected_createIndex_iff
    (isExact : collection.Exact)
    (allows : collection.Allows input spec) :
    Rejected (collection.createIndex input) ↔
      ¬ spec.Distinguishes collection.decoded := by
  have builds :=
    @IndexSet.build_distinguishes collection.decoded [] _
      isExact.stored_decoded (FieldIndex.builtFrom_create spec) .nil
  cases result : (collection.decoded.map Except.ok).foldlM
      IndexSet.buildStep (FieldIndex.create spec) with
  | error error =>
      rw [result] at builds
      obtain ⟨⟨storageError, rfl, isCode⟩, refused⟩ := builds
      have fails :
          collection.buildIndex spec = .error (.storage storageError) := by
        unfold buildIndex
        rw [allows.create_eq, result]
        rfl
      refine iff_of_true ⟨collection, storageError, ?_, isCode⟩ refused
      unfold createIndex
      rw [allows.normalizes]
      simp only [attempt, fails]
  | ok index =>
      rw [result] at builds
      refine iff_of_false ?_ (fun refused => refused builds)
      have succeeds :
          ∃ built, collection.buildIndex spec = .ok built := by
        unfold buildIndex
        rw [allows.create_eq, result]
        simp only [Result.ok_bind]
        split_ifs <;> exact ⟨_, rfl⟩
      obtain ⟨⟨built, created⟩, succeeds⟩ := succeeds
      unfold createIndex
      rw [allows.normalizes]
      simp only [attempt, succeeds]
      split_ifs <;> simp [Rejected]

end Indexes

/-- Inserts that pass all checks but the one for duplicates. -/
def prepareAll
    (collection : Collection)
    (generated : Nat → CustomId) :
    List Document → Nat → List PreparedInsert →
      Except Thrown (List PreparedInsert)
  | [], _, prepared => .ok prepared
  | document :: rest, index, prepared => do
      let next ←
        collection.prepareInsert (prepared.map PreparedInsert.key)
          (generated index) document
      if IndexSet.isEmpty collection.indexes then
        prepareAll collection generated rest (index + 1) (prepared ++ [next])
      else
        let _ ← liftProtocol (decodeDocument next.encoded)
        prepareAll collection generated rest (index + 1) (prepared ++ [next])

/-- The collection that inserts lead to. -/
def inserting
    (collection : Collection)
    (prepared : List PreparedInsert) : Collection :=
  collection.putAll (prepared.map fun insert => (insert.key, insert.encoded))

/-- Prepared inserts have new and distinct keys. -/
structure Fresh
    (collection : Collection)
    (prepared : List PreparedInsert) : Prop where
  fresh : ∀ insert ∈ prepared, insert.key ∉ collection.documents.keys
  distinct : (prepared.map PreparedInsert.key).Nodup

section Preparing

variable
  {collection : Collection}
  {generated : Nat → CustomId}

/-- One more prepared insert. -/
theorem Fresh.snoc
    {prepared : List PreparedInsert}
    {generated : CustomId}
    {document : Document}
    {next : PreparedInsert}
    (isFresh : collection.Fresh prepared)
    (prepares :
      collection.prepareInsert (prepared.map PreparedInsert.key) generated
        document = .ok next) :
    collection.Fresh (prepared ++ [next]) := by
  obtain ⟨isPrepared, notPending⟩ := prepareInsert_ok prepares
  constructor
  · intro insert member
    rcases List.mem_append.mp member with isOlder | isNew
    · exact isFresh.fresh insert isOlder
    · obtain rfl := List.mem_singleton.mp isNew
      exact isPrepared.fresh
  · rw [List.map_append, List.nodup_append]
    refine ⟨isFresh.distinct, by simp, ?_⟩
    rintro key isOlder other isNew rfl
    obtain rfl := List.mem_singleton.mp isNew
    exact notPending isOlder

/-- What the first of some documents is prepared to. -/
theorem prepareAll_cons
    {document : Document}
    {rest : List Document}
    {index : Nat}
    {before prepared : List PreparedInsert}
    (prepares :
      collection.prepareAll generated (document :: rest) index before =
        .ok prepared) :
    ∃ next,
      collection.prepareInsert (before.map PreparedInsert.key)
          (generated index) document = .ok next ∧
        (IndexSet.isEmpty collection.indexes = false →
          ∃ after, decodeDocument next.encoded = .ok after) ∧
        collection.prepareAll generated rest (index + 1) (before ++ [next]) =
          .ok prepared := by
  obtain ⟨next, isNext, prepares⟩ := Result.bind_eq_ok.mp prepares
  split_ifs at prepares with empty
  · refine ⟨next, isNext, ?_, prepares⟩
    intro notEmpty
    rw [empty] at notEmpty
    cases notEmpty
  · obtain ⟨after, decodes, prepares⟩ := Result.bind_eq_ok.mp prepares
    exact ⟨next, isNext, fun _ => ⟨after, decodes_of_lift decodes⟩, prepares⟩

/-- Prepared inserts are fresh and come behind the earlier ones. -/
theorem fresh_prepareAll
    {documents : List Document}
    {index : Nat}
    {before prepared : List PreparedInsert}
    (isFresh : collection.Fresh before)
    (prepares :
      collection.prepareAll generated documents index before =
        .ok prepared) :
    collection.Fresh prepared ∧ before <+: prepared := by
  induction documents generalizing index before with
  | nil =>
      obtain rfl := Except.ok.inj prepares
      exact ⟨isFresh, List.prefix_refl _⟩
  | cons document rest inductionHypothesis =>
      obtain ⟨next, isNext, -, prepares⟩ := prepareAll_cons prepares
      obtain ⟨freshAll, isPrefix⟩ :=
        inductionHypothesis (isFresh.snoc isNext) prepares
      exact ⟨freshAll, (List.prefix_append before [next]).trans isPrefix⟩

/-- Documents in two parts are prepared one part after the other. -/
theorem prepareAll_append
    (front rest : List Document)
    (index : Nat)
    (before : List PreparedInsert) :
    collection.prepareAll generated (front ++ rest) index before =
      collection.prepareAll generated front index before >>= fun prepared =>
        collection.prepareAll generated rest (index + front.length)
          prepared := by
  induction front generalizing index before with
  | nil =>
      rfl
  | cons document later inductionHypothesis =>
      have place : index + 1 + later.length =
          index + (document :: later).length := by
        rw [List.length_cons]
        omega
      rw [List.cons_append, prepareAll, prepareAll]
      simp only [inductionHypothesis, place]
      cases collection.prepareInsert (before.map PreparedInsert.key)
          (generated index) document with
      | error error =>
          rfl
      | ok next =>
          simp only [Result.ok_bind]
          split_ifs
          · rfl
          · cases decodeDocument next.encoded <;> rfl

/-- The documents that inserts lead to. -/
theorem mem_decoded_inserting
    {prepared : List PreparedInsert}
    (isFresh : collection.Fresh prepared)
    (key : JsString)
    (document : Document) :
    (key, document) ∈ (collection.inserting prepared).decoded ↔
      collection.Stores key document ∨
        ∃ insert ∈ prepared, insert.key = key ∧
          decodeDocument insert.encoded = .ok document := by
  rw [mem_decoded]
  unfold Stores inserting
  simp only [mem_putAll_prepared isFresh.fresh isFresh.distinct]
  constructor
  · rintro ⟨encoded, stored | ⟨insert, member, isEntry⟩, decodes⟩
    · exact .inl ⟨encoded, stored, decodes⟩
    · obtain ⟨rfl, rfl⟩ := Prod.mk.inj isEntry
      exact .inr ⟨insert, member, rfl, decodes⟩
  · rintro (⟨encoded, stored, decodes⟩ | ⟨insert, member, rfl, decodes⟩)
    · exact ⟨encoded, .inl stored, decodes⟩
    · exact ⟨insert.encoded, .inr ⟨insert, member, rfl⟩, decodes⟩

/-- Fewer inserts break no more indexes. -/
theorem Unique.mono
    {prepared fewer : List PreparedInsert}
    (unique : (collection.inserting prepared).Unique)
    (isFresh : collection.Fresh prepared)
    (isPrefix : fewer <+: prepared) :
    (collection.inserting fewer).Unique := by
  have fewerFresh : collection.Fresh fewer :=
    ⟨fun insert member => isFresh.fresh insert (isPrefix.subset member),
      isFresh.distinct.sublist (isPrefix.sublist.map _)⟩
  intro name index found
  rw [inserting, putAll_indexes] at found
  have allowed := unique name index (by
    rw [inserting, putAll_indexes]
    exact found)
  refine allowed.mono ?_ ?_
  · exact (collection.inserting fewer).documents.nodup_keys.sublist
      (keys_decoded_sublist _)
  · rintro ⟨key, document⟩ member
    rw [mem_decoded_inserting fewerFresh] at member
    rw [mem_decoded_inserting isFresh]
    rcases member with stored | ⟨insert, isInsert, isEntry⟩
    · exact .inl stored
    · exact .inr ⟨insert, isPrefix.subset isInsert, isEntry⟩

end Preparing

section Inserting

variable
  {collection reached : Collection}
  {generated : Nat → CustomId}
  {accepted : List PreparedInsert}
  {rollbacks : List (List UndoStep)}
  {tracking : Documents}

/-- Accepted inserts are fresh. -/
theorem Accepted.isFresh
    (isAccepted :
      Accepted collection reached accepted rollbacks tracking) :
    collection.Fresh accepted :=
  ⟨isAccepted.fresh, isAccepted.distinct⟩

/-- Accepted inserts break no unique index. -/
theorem Accepted.unique
    (isAccepted :
      Accepted collection reached accepted rollbacks tracking) :
    (collection.inserting accepted).Unique := by
  unfold Unique inserting
  rw [putAll_indexes]
  exact isAccepted.distinguishes.perm (isAccepted.perm_putAll rfl).symm

/-- An insert that passes its other checks is accepted exactly when it breaks
no unique index. -/
theorem Accepted.tryInsert_cases
    {generated : CustomId}
    {document after : Document}
    {next : PreparedInsert}
    (isAccepted :
      Accepted collection reached accepted rollbacks tracking)
    (notEmpty : IndexSet.isEmpty collection.indexes = false)
    (prepares :
      collection.prepareInsert (accepted.map PreparedInsert.key) generated
        document = .ok next)
    (decodes : decodeDocument next.encoded = .ok after) :
    (∃ tracked undo,
        reached.tryInsert (accepted.map PreparedInsert.key) generated
            document = (tracked, .ok (next, undo)) ∧
          (collection.inserting (accepted ++ [next])).Unique) ∨
      ∃ tracked error,
        reached.tryInsert (accepted.map PreparedInsert.key) generated
            document = (tracked, .error (.storage error)) ∧
          error.code = .duplicateKey ∧
          ¬ (collection.inserting (accepted ++ [next])).Unique := by
  have reachedNotEmpty : IndexSet.isEmpty reached.indexes = false :=
    (isEmpty_of_definitions isAccepted.definitions).trans notEmpty
  have reachedPrepares :
      reached.prepareInsert (accepted.map PreparedInsert.key) generated
        document = .ok next := by
    rw [isAccepted.shape]
    exact prepares
  have batch := isAccepted.batch reachedPrepares decodes
  have fresh := isAccepted.isFresh.snoc prepares
  have perm :
      (collection.inserting (accepted ++ [next])).decoded.Perm
        (tracking.changed [⟨next.key, none, some after⟩]) := by
    have own :=
      (collection.inserting
        (accepted ++ [next])).documents.nodup_keys.sublist
          (keys_decoded_sublist _)
    have changed := (stored_changed isAccepted.stored batch).distinct
    rw [List.perm_ext_iff_of_nodup (own.of_map _) (changed.of_map _)]
    rintro ⟨key, document⟩
    rw [mem_decoded_inserting fresh,
      isAccepted.mem_changed reachedPrepares decodes]
  have allowed :
      (collection.inserting (accepted ++ [next])).Unique ↔
        reached.indexes.Distinguishes
          (tracking.changed [⟨next.key, none, some after⟩]) := by
    unfold Unique
    rw [show (collection.inserting (accepted ++ [next])).indexes =
      collection.indexes from putAll_indexes _ _]
    constructor
    · exact fun unique =>
        isAccepted.definitions.distinguishes (unique.perm perm)
    · exact fun unique =>
        (isAccepted.definitions.symm.distinguishes unique).perm perm.symm
  have accepts :=
    IndexSet.applyChanges_isOk_iff isAccepted.stored isAccepted.represents
      (isAccepted.definitions.distinguishes isAccepted.distinguishes) batch
  rw [tryInsert_indexed reachedNotEmpty reachedPrepares decodes, allowed,
    ← accepts]
  cases tracks : reached.trackChanges [⟨next.key, none, some after⟩] with
  | mk tracked result =>
      rw [(trackChanges_eq tracks).2]
      cases result with
      | ok undo =>
          exact .inl ⟨tracked, undo, rfl, rfl⟩
      | error error =>
          obtain ⟨storageError, rfl, isCode⟩ :=
            IndexSet.code_of_refused (trackChanges_eq tracks).2
          exact .inr ⟨tracked, storageError, rfl, isCode, nofun⟩

/-- Inserts that pass their other checks are all accepted, or the loop stops at
one of them. -/
theorem Accepted.insertLoop_prepared
    {documents : List Document}
    {index : Nat}
    {prepared : List PreparedInsert}
    (isAccepted :
      Accepted collection reached accepted rollbacks tracking)
    (notEmpty : IndexSet.isEmpty collection.indexes = false)
    (prepares :
      collection.prepareAll generated documents index accepted =
        .ok prepared) :
    (∃ final undone tracking,
        Collection.insertLoop generated documents index reached accepted
            rollbacks = (final, .ok ⟨prepared, undone, none⟩) ∧
          Accepted collection final prepared undone tracking) ∨
      (∃ final inserted undone place error,
        (∀ rest,
          Collection.insertLoop generated (documents ++ rest) index reached
              accepted rollbacks =
            (final, .ok ⟨inserted, undone, some (place, error)⟩)) ∧
          place < index + documents.length) ∧
        ¬ (collection.inserting prepared).Unique := by
  induction documents generalizing index reached accepted rollbacks
    tracking with
  | nil =>
      obtain rfl := Except.ok.inj prepares
      exact .inl ⟨reached, rollbacks, tracking, rfl, isAccepted⟩
  | cons document rest inductionHypothesis =>
      obtain ⟨next, isNext, decodes, prepares⟩ := prepareAll_cons prepares
      obtain ⟨after, decodes⟩ := decodes notEmpty
      obtain ⟨freshAll, isPrefix⟩ :=
        fresh_prepareAll (isAccepted.isFresh.snoc isNext) prepares
      rcases isAccepted.tryInsert_cases notEmpty isNext decodes with
        ⟨tracked, undo, tries, -⟩ | ⟨tracked, error, tries, -, broken⟩
      · obtain ⟨own, -, accepts⟩ := isAccepted.snoc notEmpty tries
        rw [insertLoop_cons_ok tries]
        rcases inductionHypothesis accepts prepares with
          all | ⟨⟨final, inserted, undone, place, error, stops, less⟩, broken⟩
        · exact .inl all
        · refine .inr ⟨⟨final, inserted, undone, place, error, ?_, ?_⟩,
            broken⟩
          · intro later
            rw [List.cons_append, insertLoop_cons_ok tries]
            exact stops later
          · rw [List.length_cons]
            omega
      · refine .inr ⟨⟨tracked, accepted, rollbacks, index, error, ?_, ?_⟩,
          fun unique => broken (unique.mono freshAll isPrefix)⟩
        · intro later
          rw [List.cons_append, insertLoop_cons_error tries]
          rfl
        · rw [List.length_cons]
          omega

/-- Without indexes inserts that pass their checks are all accepted. -/
theorem insertLoop_of_prepareAll
    {documents : List Document}
    {index : Nat}
    {before prepared : List PreparedInsert}
    {undone : List (List UndoStep)}
    (empty : IndexSet.isEmpty collection.indexes = true)
    (prepares :
      collection.prepareAll generated documents index before =
        .ok prepared) :
    ∃ rollbacks,
      insertLoop generated documents index collection before undone =
        (collection, .ok ⟨prepared, rollbacks, none⟩) := by
  induction documents generalizing index before undone with
  | nil =>
      obtain rfl := Except.ok.inj prepares
      exact ⟨undone, rfl⟩
  | cons document rest inductionHypothesis =>
      obtain ⟨next, isNext, -, prepares⟩ := prepareAll_cons prepares
      have tries :=
        @tryInsert_of_isEmpty collection (before.map PreparedInsert.key)
          (generated index) document empty
      rw [isNext] at tries
      rw [insertLoop_cons_ok tries]
      exact inductionHypothesis prepares

/-- What `insertMany` answers when the journal does. -/
theorem insertMany_result
    {documents : List Document}
    (notEmpty : documents ≠ []) :
    ((collection.insertMany generated documents).run (.ok ())).2 =
      (insertLoop generated documents 0 collection [] []).2 >>= fun batch =>
        match batch.failure with
        | some (index, error) =>
            .error (insertManyError index
              (batch.accepted.map PreparedInsert.id) error)
        | none => .ok (batch.accepted.map PreparedInsert.id) := by
  unfold insertMany
  rw [if_neg notEmpty]
  cases loops : insertLoop generated documents 0 collection [] [] with
  | mk final result =>
      cases result with
      | error error =>
          rfl
      | ok batch =>
          simp only [commit]
          split_ifs <;> rfl

/-- A batch of inserts stops at a place with `DuplicateKey`, behind inserts
that it has made. -/
def StopsBehind
    (collection : Collection)
    (generated : Nat → CustomId)
    (documents : List Document)
    (inserted : List PreparedInsert)
    (place : Nat) : Prop :=
  ∃ error,
    ((collection.insertMany generated documents).run (.ok ())).2 =
        .error (insertManyError place (inserted.map PreparedInsert.id)
          error) ∧
      error.code = .duplicateKey

/-- A batch does not stop among documents that its loop has accepted. -/
theorem not_stopsBehind_of_accepts
    {front back : List Document}
    {inserted accepted : List PreparedInsert}
    {undone : List (List UndoStep)}
    {place : Nat}
    (accepts :
      insertLoop generated front 0 collection [] [] =
        (reached, .ok ⟨accepted, undone, none⟩))
    (inside : place < front.length) :
    ¬ collection.StopsBehind generated (front ++ back) inserted place := by
  rintro ⟨error, stops, -⟩
  have some : front ++ back ≠ [] := by
    intro none
    rw [(List.append_eq_nil_iff.mp none).1] at inside
    cases inside
  rw [insertMany_result some, insertLoop_append accepts] at stops
  rcases insertLoop_cases generated back (0 + front.length) reached accepted
    undone with
    ⟨final, all, rollbacks, loops⟩ |
    ⟨later, document, rest, -, others, rollbacks, final, thrown, -, -, -,
      loops⟩
  · rw [loops] at stops
    cases stops
  · rw [loops] at stops
    cases thrown with
    | storage storageError =>
        have same := Except.error.inj stops
        simp only [insertManyError, Thrown.storage.injEq,
          StorageError.mk.injEq, Option.some.injEq,
          InsertManyDetails.mk.injEq] at same
        omega
    | protocol _ =>
        cases Except.error.inj stops
    | other _ =>
        cases Except.error.inj stops

/-- A batch stops at a document that passes its other checks exactly when this
is the first one whose insertion breaks a unique index. -/
theorem stopsBehind_iff
    {front back : List Document}
    {document : Document}
    {inserted : List PreparedInsert}
    {next : PreparedInsert}
    (isExact : collection.Exact)
    (frontPrepares :
      collection.prepareAll generated front 0 [] = .ok inserted)
    (prepares :
      collection.prepareAll generated (front ++ [document]) 0 [] =
        .ok (inserted ++ [next])) :
    collection.StopsBehind generated (front ++ document :: back) inserted
        front.length ↔
      (collection.inserting inserted).Unique ∧
        ¬ (collection.inserting (inserted ++ [next])).Unique := by
  have isSplit :
      front ++ document :: back = (front ++ [document]) ++ back := by simp
  have inside : front.length < (front ++ [document]).length := by simp
  cases empty : IndexSet.isEmpty collection.indexes with
  | true =>
      refine iff_of_false ?_ ?_
      · obtain ⟨rollbacks, accepts⟩ :=
          @insertLoop_of_prepareAll collection generated _ 0 [] _ [] empty
            prepares
        rw [isSplit]
        exact not_stopsBehind_of_accepts accepts inside
      · rintro ⟨-, broken⟩
        refine broken (IndexSet.distinguishes_of_isEmpty ?_ _)
        rw [inserting, putAll_indexes, empty]
  | false =>
      have start := accepted_start isExact
      constructor
      · intro stops
        refine ⟨?_, ?_⟩
        · rcases start.insertLoop_prepared empty frontPrepares with
            ⟨final, undone, tracking, -, isAccepted⟩ |
            ⟨⟨final, others, undone, place, error, ends, less⟩, -⟩
          · exact isAccepted.unique
          · obtain ⟨other, stops, -⟩ := stops
            rw [insertMany_result (by simp), ends] at stops
            have same := Except.error.inj stops
            simp only [insertManyError, Thrown.storage.injEq,
              StorageError.mk.injEq, Option.some.injEq,
              InsertManyDetails.mk.injEq] at same
            omega
        · intro unique
          rcases start.insertLoop_prepared empty prepares with
            ⟨final, undone, tracking, accepts, -⟩ | ⟨-, broken⟩
          · rw [isSplit] at stops
            exact not_stopsBehind_of_accepts accepts inside stops
          · exact broken unique
      · rintro ⟨unique, broken⟩
        obtain ⟨final, undone, tracking, accepts, isAccepted⟩ :=
          (start.insertLoop_prepared empty frontPrepares).resolve_right
            (fun stops => stops.2 unique)
        rw [prepareAll_append, frontPrepares, Result.ok_bind] at prepares
        obtain ⟨own, isNext, decodes, same⟩ := prepareAll_cons prepares
        obtain rfl : own = next := by
          simpa [prepareAll] using same
        obtain ⟨after, decodes⟩ := decodes empty
        rcases isAccepted.tryInsert_cases empty isNext decodes with
          ⟨-, -, -, allowed⟩ | ⟨tracked, error, tries, isCode, -⟩
        · exact absurd allowed broken
        · refine ⟨error, ?_, isCode⟩
          rw [insertMany_result (by simp), insertLoop_append accepts,
            insertLoop_cons_error tries]
          simp [stopped]

end Inserting

/-- Unique indexes hold, and refuse exactly what would break them. -/
structure EnforcesUnique (collection : Collection) : Prop where
  unique : collection.Unique
  batch :
    ∀ call proposal, collection.propose call = some (.ok proposal) →
      (Rejected (collection.perform call) ↔
        ¬ (collection.carryOut proposal.operations).Unique)
  createIndex :
    ∀ input spec, collection.Allows input spec →
      (Rejected (collection.perform (.createIndex input)) ↔
        ¬ spec.Distinguishes collection.decoded)
  insertMany :
    ∀ generated front document back inserted next,
      collection.prepareAll generated front 0 [] = .ok inserted →
      collection.prepareAll generated (front ++ [document]) 0 [] =
        .ok (inserted ++ [next]) →
      (collection.StopsBehind generated (front ++ document :: back) inserted
          front.length ↔
        (collection.inserting inserted).Unique ∧
          ¬ (collection.inserting (inserted ++ [next])).Unique)

/-- After a careful run of an opened collection, unique indexes are exact. -/
theorem run_enforcesUnique
    {collection : Collection}
    {documents : JsMap JsString Bytes}
    {specs : List IndexSpec}
    {calls : List (WriteCall × Except Thrown Unit)}
    (stored : StoredDocuments documents)
    (creates : create documents specs = .ok collection)
    (careful : collection.Careful calls) :
    (collection.run calls).EnforcesUnique := by
  have isExact := exact_run (exact_create stored creates) careful
  exact
    { unique := isExact.distinguishes
      batch := fun _ _ => rejected_perform_iff isExact
      createIndex := fun _ _ allows =>
        (rejected_map _).trans (rejected_createIndex_iff isExact allows)
      insertMany := fun _ _ _ _ _ _ => stopsBehind_iff isExact }

/-- A unique index over two documents, which is exact. -/
theorem run_enforcesUnique_uniqueRun :
    (empty.run uniqueRun).EnforcesUnique :=
  @run_enforcesUnique empty .empty [] uniqueRun nofun rfl
    ⟨id, id, id, trivial⟩

/-- The empty unique index after the spoiled batch. -/
def spoiledRun : List (WriteCall × Except Thrown Unit) :=
  uniqueIndex ++ [(spoiledBatch, .ok ())]

/-- An insert with the value that the spoiled batch has left behind. -/
def freshInsert : WriteCall :=
  .insertOne (plainId 9) (withNumber 5)

/-- What the insert proposes. -/
def freshProposal : Proposal :=
  match (empty.run spoiledRun).propose freshInsert with
  | some (.ok proposal) => proposal
  | _ => .nothing .indexDropped

/-- The code that a write is rejected with. -/
def rejection? {α : Type} : Write α → Option StorageErrorCode
  | .done _ (.error (.storage error)) => some error.code
  | _ => none

/-- A code tells that a write is rejected. -/
theorem rejected_of_rejection?
    {α : Type}
    {write : Write α}
    (rejects : rejection? write = some .duplicateKey) :
    Rejected write := by
  unfold rejection? at rejects
  split at rejects
  · exact ⟨_, _, rfl, Option.some.inj rejects⟩
  · cases rejects

/-- After the spoiled batch the collection has no documents, but a document
with the value of the first one is rejected. -/
theorem not_enforcesUnique_spoiledBatch :
    ¬ ∀ calls, (empty.run calls).EnforcesUnique := by
  intro enforces
  have proposes :
      (empty.run spoiledRun).propose freshInsert =
        some (.ok freshProposal) := by
    have succeeds :
        ((empty.run spoiledRun).propose freshInsert).map Except.isOk =
          some true := by
      decide +kernel
    unfold freshProposal
    generalize (empty.run spoiledRun).propose freshInsert = proposed
      at succeeds
    match proposed, succeeds with
    | some (.ok proposal), _ => rfl
  have rejected :
      Rejected ((empty.run spoiledRun).perform freshInsert) :=
    rejected_of_rejection? (by decide +kernel)
  refine ((enforces spoiledRun).batch _ _ proposes).mp rejected ?_
  have single :
      ((empty.run spoiledRun).carryOut
        freshProposal.operations).decoded.length = 1 := by
    decide +kernel
  obtain ⟨entry, isSingle⟩ := List.length_eq_one_iff.mp single
  intro name index found
  rw [isSingle]
  exact List.pairwise_singleton _ _

end Collection

end SinterDb
