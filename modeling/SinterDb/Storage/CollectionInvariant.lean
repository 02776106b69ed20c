import SinterDb.Storage.IndexSetInvariant
import SinterDb.Storage.StoredForm

namespace SinterDb

open Unicode

/-!
# Invariants of collections

What holds of a collection between its operations: the form of the stored
documents, what the indexes know of them, and the numbers of their keys.
-/

/-- The numbers of keys increase along them and are all used up. -/
structure Numbered
    (keys : List JsString)
    (sequence : JsMap JsString Nat)
    (next : Nat) : Prop where
  used : ∀ key ∈ keys, ∃ number, sequence.get? key = some number ∧ number < next
  increasing :
    keys.Pairwise fun left right =>
      (sequence.get? left).getD 0 < (sequence.get? right).getD 0

/-- Numbering depends only on the numbers of the keys. -/
theorem Numbered.congr
    {keys : List JsString}
    {sequence other : JsMap JsString Nat}
    {next : Nat}
    (numbered : Numbered keys sequence next)
    (same : ∀ key ∈ keys, other.get? key = sequence.get? key) :
    Numbered keys other next := by
  constructor
  · intro key member
    rw [same key member]
    exact numbered.used key member
  · refine List.Pairwise.imp_of_mem ?_ numbered.increasing
    intro left right leftMember rightMember less
    rwa [same left leftMember, same right rightMember]

/-- A new key takes the next number. -/
theorem Numbered.snoc
    {keys : List JsString}
    {sequence : JsMap JsString Nat}
    {next : Nat}
    (numbered : Numbered keys sequence next)
    {key : JsString}
    (fresh : key ∉ keys) :
    Numbered (keys ++ [key]) (sequence.set key next) (next + 1) := by
  have older :
      ∀ other ∈ keys,
        (sequence.set key next).get? other = sequence.get? other := by
    intro other member
    rw [JsMap.get?_set, if_neg]
    rintro rfl
    exact fresh member
  have own : (sequence.set key next).get? key = some next := by
    rw [JsMap.get?_set, if_pos rfl]
  have kept := numbered.congr older
  constructor
  · intro other member
    rcases List.mem_append.mp member with member | isKey
    · obtain ⟨number, isNumber, less⟩ := kept.used other member
      exact ⟨number, isNumber, by omega⟩
    · obtain rfl := List.mem_singleton.mp isKey
      exact ⟨next, own, by omega⟩
  · rw [List.pairwise_append]
    refine ⟨kept.increasing, List.pairwise_singleton _ _, ?_⟩
    intro left leftMember right isKey
    obtain rfl := List.mem_singleton.mp isKey
    obtain ⟨number, isNumber, less⟩ := kept.used left leftMember
    rw [isNumber, own]
    exact less

/-- Some of the keys are numbered, too. -/
theorem Numbered.filter
    {keys : List JsString}
    {sequence : JsMap JsString Nat}
    {next : Nat}
    (numbered : Numbered keys sequence next)
    (keep : JsString → Bool) :
    Numbered (keys.filter keep) sequence next :=
  ⟨fun key member => numbered.used key (List.mem_of_mem_filter member),
    numbered.increasing.sublist List.filter_sublist⟩

namespace Collection

/-- A document is stored under a key. -/
def Stores
    (collection : Collection)
    (key : JsString)
    (document : Document) : Prop :=
  ∃ encoded, (key, encoded) ∈ collection.documents.entries ∧
    decodeDocument encoded = .ok document

/-- The stored keys have increasing numbers while there are indexes. -/
structure Sequenced (collection : Collection) : Prop where
  exists_sequence :
    IndexSet.isEmpty collection.indexes = false →
      collection.sequence ≠ none
  numbered :
    ∀ sequence, collection.sequence = some sequence →
      Numbered collection.documents.keys sequence collection.nextSequence

/-- What holds of a collection between its operations. -/
structure Sound (collection : Collection) : Prop extends
    Sequenced collection where
  stored :
    ∀ key encoded, (key, encoded) ∈ collection.documents.entries →
      StoredAs key encoded
  wellFormed : IndexSet.WellFormed collection.indexes
  known :
    ∀ key document, collection.Stores key document →
      ∀ name, IndexSet.Knows collection.indexes name key document

/-- A stored document has canonical keys for all of its values. -/
theorem Sound.keyed
    {collection : Collection}
    (sound : collection.Sound)
    {key : JsString}
    {encoded : Bytes}
    {document : Document}
    (member : (key, encoded) ∈ collection.documents.entries)
    (decodes : decodeDocument encoded = .ok document) :
    document.Keyed := fun _ _ =>
  hasKey_of_resolveField
    ((sound.stored key encoded member).decoded decodes).1

/-- An empty collection is sound. -/
theorem sound_empty : empty.Sound where
  exists_sequence := by decide
  numbered := by simp [empty]
  stored := by simp [empty, JsMap.empty, JsMap.entries]
  wellFormed := by
    intro name index found
    cases found
  known := by
    rintro key document ⟨encoded, member, -⟩
    cases member

/-- No key is stored twice. -/
theorem encoded_unique
    {collection : Collection}
    {key : JsString}
    {first second : Bytes}
    (isFirst : (key, first) ∈ collection.documents.entries)
    (isSecond : (key, second) ∈ collection.documents.entries) :
    first = second := by
  rw [← JsMap.get?_eq_some] at isFirst isSecond
  exact Option.some.inj (isFirst.symm.trans isSecond)

section Steps

variable
  {collection : Collection}

/-- Putting a document sets its entry. -/
@[simp] theorem put_documents
    (collection : Collection)
    (key : JsString)
    (encoded : Bytes) :
    (collection.put key encoded).documents =
      collection.documents.set key encoded := by
  unfold put
  split
  · rfl
  · split_ifs <;> rfl

/-- Putting a document leaves the indexes alone. -/
@[simp] theorem put_indexes
    (collection : Collection)
    (key : JsString)
    (encoded : Bytes) :
    (collection.put key encoded).indexes = collection.indexes := by
  unfold put
  split
  · rfl
  · split_ifs <;> rfl

/-- Putting a document numbers a new key. -/
theorem sequenced_put
    (sequenced : collection.Sequenced)
    (key : JsString)
    (encoded : Bytes) :
    (collection.put key encoded).Sequenced := by
  have indexes := put_indexes collection key encoded
  have documents := put_documents collection key encoded
  unfold put at documents indexes ⊢
  cases isSequence : collection.sequence with
  | none =>
      refine ⟨?_, ?_⟩
      · intro notEmpty
        exact absurd isSequence (sequenced.exists_sequence notEmpty)
      · simp [isSequence]
  | some sequence =>
      have numbered := sequenced.numbered sequence isSequence
      simp only
      split_ifs with present
      · refine ⟨by simp [isSequence], ?_⟩
        intro other isOther
        simp only [isSequence, Option.some.injEq] at isOther
        subst isOther
        rw [JsMap.keys_set_of_mem (JsMap.has_iff.mp present)]
        exact numbered
      · refine ⟨by simp, ?_⟩
        intro other isOther
        simp only [Option.some.injEq] at isOther
        subst isOther
        have fresh : key ∉ collection.documents.keys :=
          fun member => present (JsMap.has_iff.mpr member)
        rw [JsMap.keys_set_of_not_mem fresh]
        exact numbered.snoc fresh

/-- Removing a document keeps the numbers of the others. -/
theorem sequenced_remove
    (sequenced : collection.Sequenced)
    (key : JsString) :
    (collection.remove key).Sequenced := by
  unfold remove
  refine ⟨?_, ?_⟩
  · intro notEmpty
    simpa using sequenced.exists_sequence notEmpty
  · intro other isOther
    obtain ⟨sequence, isSequence, rfl⟩ := Option.map_eq_some_iff.mp isOther
    rw [JsMap.keys_delete]
    refine ((sequenced.numbered sequence isSequence).filter _).congr ?_
    intro other member
    rw [JsMap.get?_delete, if_neg]
    rintro rfl
    simp at member

/-- Putting documents sets their entries. -/
@[simp] theorem putAll_documents
    (collection : Collection)
    (entries : List (JsString × Bytes)) :
    (collection.putAll entries).documents =
      entries.foldl (fun map entry => map.set entry.1 entry.2)
        collection.documents := by
  unfold putAll
  induction entries generalizing collection with
  | nil =>
      rfl
  | cons entry rest inductionHypothesis =>
      rw [List.foldl_cons, inductionHypothesis, put_documents,
        List.foldl_cons]

/-- Putting documents leaves the indexes alone. -/
@[simp] theorem putAll_indexes
    (collection : Collection)
    (entries : List (JsString × Bytes)) :
    (collection.putAll entries).indexes = collection.indexes := by
  unfold putAll
  induction entries generalizing collection with
  | nil =>
      rfl
  | cons entry rest inductionHypothesis =>
      rw [List.foldl_cons, inductionHypothesis, put_indexes]

/-- Putting documents numbers the new keys. -/
theorem sequenced_putAll
    (sequenced : collection.Sequenced)
    (entries : List (JsString × Bytes)) :
    (collection.putAll entries).Sequenced := by
  unfold putAll
  induction entries generalizing collection with
  | nil =>
      exact sequenced
  | cons entry rest inductionHypothesis =>
      exact inductionHypothesis (sequenced_put sequenced entry.1 entry.2)

/-- Removing documents leaves the indexes alone and the others stored. -/
theorem removeAll_spec
    (collection : Collection)
    (keys : List JsString) :
    (collection.removeAll keys).indexes = collection.indexes ∧
      (collection.removeAll keys).documents.entries =
        collection.documents.entries.filter fun entry =>
          !(entry.1 ∈ keys) := by
  unfold removeAll
  induction keys generalizing collection with
  | nil =>
      simp
  | cons key rest inductionHypothesis =>
      obtain ⟨indexes, entries⟩ := inductionHypothesis (collection.remove key)
      rw [List.foldl_cons]
      refine ⟨indexes, ?_⟩
      rw [entries]
      simp only [remove, JsMap.entries_delete, List.filter_filter]
      congr 1
      funext entry
      simp [Bool.and_comm]

/-- Removing documents keeps the numbers of the others. -/
theorem sequenced_removeAll
    (sequenced : collection.Sequenced)
    (keys : List JsString) :
    (collection.removeAll keys).Sequenced := by
  unfold removeAll
  induction keys generalizing collection with
  | nil =>
      exact sequenced
  | cons key rest inductionHypothesis =>
      exact inductionHypothesis (sequenced_remove sequenced key)

end Steps

end Collection

/-- A property of the collection holds after a write, for every answer of the
journal. -/
def Write.Ensures
    {α : Type}
    (write : Write α)
    (property : Collection → Prop) : Prop :=
  ∀ answer, property (write.run answer).1

/-- Using the result of a write further does not change the collection. -/
theorem Write.ensures_map
    {α β : Type}
    {write : Write α}
    {property : Collection → Prop}
    (ensures : write.Ensures property)
    (use : α → β) :
    (write.map use).Ensures property := by
  intro answer
  cases write with
  | done collection result =>
      exact ensures answer
  | commit during operations resume =>
      exact ensures answer

namespace Collection

section Rules

variable
  {α β : Type}
  {collection : Collection}
  {property : Collection → Prop}

/-- A write that may stop early. -/
theorem ensures_attempt
    {result : Except Thrown α}
    {next : α → Write β}
    (here : property collection)
    (later : ∀ value, result = .ok value → (next value).Ensures property) :
    (collection.attempt result next).Ensures property := by
  unfold attempt
  cases result with
  | error error =>
      exact fun _ => here
  | ok value =>
      exact later value rfl

/-- The last part of a write. -/
theorem ensures_commit
    {undo : List UndoStep}
    {operations : List JournalOperation}
    {change : Collection → Collection}
    {result : Except Thrown α}
    (succeeds : property (change collection))
    (fails : property (collection.rollback undo)) :
    (collection.commit undo operations change result).Ensures property := by
  unfold commit
  split_ifs
  · exact fun _ => succeeds
  · intro answer
    cases answer with
    | error error =>
        exact fails
    | ok _ =>
        exact succeeds

end Rules

/-- Sets of indexes with the same names are empty together. -/
theorem isEmpty_congr
    {set other : IndexSet}
    (keys : other.keys = set.keys) :
    IndexSet.isEmpty other = IndexSet.isEmpty set := by
  have sizes := congrArg List.length keys
  simp only [JsMap.keys, List.length_map] at sizes
  simp [IndexSet.isEmpty, JsMap.size, sizes]

section Tracking

variable
  {collection tracked : Collection}
  {changes : List DocumentChange}
  {undo : List UndoStep}

/-- Changing indexes keeps the numbering. -/
theorem Sequenced.withIndexes
    (sequenced : collection.Sequenced)
    {indexes : IndexSet}
    (keys : indexes.keys = collection.indexes.keys) :
    ({ collection with indexes := indexes } : Collection).Sequenced :=
  ⟨fun notEmpty => sequenced.exists_sequence (isEmpty_congr keys ▸ notEmpty),
    sequenced.numbered⟩

/-- Indexes that keep what is known of stored documents keep soundness. -/
theorem Sound.withIndexes
    (sound : collection.Sound)
    {indexes : IndexSet}
    {exempt : JsString → Prop}
    (keeps : IndexSet.Keeps collection.indexes indexes exempt)
    (known :
      ∀ key document, collection.Stores key document → exempt key →
        ∀ name, IndexSet.Knows indexes name key document) :
    ({ collection with indexes := indexes } : Collection).Sound where
  toSequenced := sound.toSequenced.withIndexes keeps.keys
  stored := sound.stored
  wellFormed := keeps.wellFormed sound.wellFormed
  known := by
    intro key document stores name
    by_cases isExempt : exempt key
    · exact known key document stores isExempt name
    · exact keeps.knows name key document isExempt
        (sound.known key document stores name)

/-- The changes say what is stored before them. -/
def Faithful
    (collection : Collection)
    (changes : List DocumentChange) : Prop :=
  ∀ change ∈ changes, ∀ document, collection.Stores change.key document →
    change.before = some document

/-- Tracking changes changes nothing but the indexes. -/
theorem trackChanges_eq
    {result : Except Thrown (List UndoStep)}
    (tracks : collection.trackChanges changes = (tracked, result)) :
    tracked = { collection with indexes := tracked.indexes } ∧
      IndexSet.applyChanges collection.indexes changes =
        (tracked.indexes, result) := by
  unfold trackChanges at tracks
  obtain ⟨rfl, rfl⟩ := Prod.mk.inj tracks
  exact ⟨rfl, rfl⟩

/-- Changes that are refused leave a sound collection. -/
theorem sound_of_refused
    {error : Thrown}
    (sound : collection.Sound)
    (keyed : IndexSet.KeyedChanges changes)
    (faithful : collection.Faithful changes)
    (tracks : collection.trackChanges changes = (tracked, .error error)) :
    tracked.Sound := by
  obtain ⟨shape, applies⟩ := trackChanges_eq tracks
  obtain ⟨keeps, knows⟩ := IndexSet.applyChanges_error keyed applies
  rw [shape]
  refine sound.withIndexes keeps ?_
  rintro key document stores ⟨change, member, rfl⟩ name
  exact knows change member document (faithful change member document stores)
    name

/-- Changes that are rolled back leave a sound collection. -/
theorem sound_of_rollback
    (sound : collection.Sound)
    (keyed : IndexSet.KeyedChanges changes)
    (faithful : collection.Faithful changes)
    (tracks : collection.trackChanges changes = (tracked, .ok undo)) :
    (tracked.rollback undo).Sound := by
  obtain ⟨shape, applies⟩ := trackChanges_eq tracks
  obtain ⟨keeps, -, undoes⟩ := IndexSet.applyChanges_ok keyed applies
  obtain ⟨keepsBack, knows⟩ := IndexSet.rollback_spec keyed undoes
  unfold rollback
  rw [shape]
  refine sound.withIndexes ((keeps.weaken ?_).trans keepsBack) ?_
  · rintro key ⟨change, member, isKey, -⟩
    exact ⟨change, member, isKey⟩
  · rintro key document stores ⟨change, member, rfl⟩ name
    exact knows change member document
      (faithful change member document stores) name

/-- Changes that are carried out leave a sound collection. -/
theorem sound_of_tracked
    {final : Collection}
    (sound : collection.Sound)
    (keyed : IndexSet.KeyedChanges changes)
    (tracks : collection.trackChanges changes = (tracked, .ok undo))
    (indexes : final.indexes = tracked.indexes)
    (sequenced : final.Sequenced)
    (stored :
      ∀ key encoded, (key, encoded) ∈ final.documents.entries →
        StoredAs key encoded)
    (known :
      IndexSet.isEmpty collection.indexes = false →
        ∀ key encoded document,
          (key, encoded) ∈ final.documents.entries →
          decodeDocument encoded = .ok document →
          (key, encoded) ∈ collection.documents.entries ∧
              ¬ IndexSet.IsReplaced changes key ∨
            ∃ change ∈ changes,
              change.key = key ∧ change.after = some document) :
    final.Sound := by
  obtain ⟨-, applies⟩ := trackChanges_eq tracks
  obtain ⟨keeps, added, -⟩ := IndexSet.applyChanges_ok keyed applies
  rw [← indexes] at keeps added
  refine ⟨sequenced, stored, keeps.wellFormed sound.wellFormed, ?_⟩
  rintro key document ⟨encoded, member, decodes⟩ name
  cases empty : IndexSet.isEmpty collection.indexes with
  | true =>
      intro index found
      have noKeys : final.indexes.keys = [] := by
        rw [keeps.keys]
        simpa [IndexSet.isEmpty, JsMap.size, JsMap.keys] using empty
      have absent : name ∉ final.indexes.keys := by simp [noKeys]
      rw [JsMap.get?_eq_none.mpr absent] at found
      cases found
  | false =>
      rcases known empty key encoded document member decodes with
        ⟨wasStored, notReplaced⟩ | ⟨change, inChanges, rfl, isAfter⟩
      · exact keeps.knows name key document notReplaced
          (sound.known key document ⟨encoded, wasStored, decodes⟩ name)
      · exact added change inChanges document isAfter name

/-- Tracking changes keeps the numbering. -/
theorem sequenced_of_tracked
    {result : Except Thrown (List UndoStep)}
    (sound : collection.Sound)
    (keyed : IndexSet.KeyedChanges changes)
    (tracks : collection.trackChanges changes = (tracked, result)) :
    tracked.Sequenced := by
  obtain ⟨shape, applies⟩ := trackChanges_eq tracks
  rw [shape]
  apply sound.toSequenced.withIndexes
  cases result with
  | error error =>
      exact (IndexSet.applyChanges_error keyed applies).1.keys
  | ok undo =>
      exact (IndexSet.applyChanges_ok keyed applies).1.keys

end Tracking

section Locating

variable
  {collection : Collection}
  {filter : Document}
  {test : CompiledFilter}

/-- Candidates are stored. -/
theorem mem_candidates
    {entry : JsString × Bytes}
    (member : entry ∈ collection.candidates filter) :
    entry ∈ collection.documents.entries := by
  unfold candidates at member
  split at member
  · exact member
  · obtain ⟨key, -, found⟩ := List.mem_filterMap.mp member
    obtain ⟨encoded, isEncoded, rfl⟩ := Option.map_eq_some_iff.mp found
    exact JsMap.get?_eq_some.mp isEncoded

/-- A stored document, as an operation has found it. -/
structure IsLocated
    (collection : Collection)
    (located : LocatedDocument) : Prop where
  stored : (located.key, located.encoded) ∈ collection.documents.entries
  decodes : decodeDocument located.encoded = .ok located.document

/-- What was decoded by an operation. -/
theorem decodes_of_lift
    {encoded : Bytes}
    {document : Document}
    (lifts : liftProtocol (decodeDocument encoded) = .ok document) :
    decodeDocument encoded = .ok document := by
  cases result : decodeDocument encoded with
  | error error =>
      rw [result] at lifts
      cases lifts
  | ok decoded =>
      rw [result] at lifts
      rw [Except.ok.inj lifts]

/-- The first match among stored candidates is stored. -/
theorem isLocated_of_firstMatch
    {entries : List (JsString × Bytes)}
    {located : LocatedDocument}
    (stored : ∀ entry ∈ entries, entry ∈ collection.documents.entries)
    (found : firstMatch test entries = .ok (some located)) :
    collection.IsLocated located := by
  induction entries with
  | nil =>
      cases found
  | cons entry rest inductionHypothesis =>
      obtain ⟨key, encoded⟩ := entry
      rw [List.forall_mem_cons] at stored
      obtain ⟨document, decodes, found⟩ := Result.bind_eq_ok.mp found
      split_ifs at found
      · obtain rfl := Option.some.inj (Except.ok.inj found)
        exact ⟨stored.1, decodes_of_lift decodes⟩
      · exact inductionHypothesis stored.2 found

/-- A located document is stored. -/
theorem isLocated_of_locate
    {located : LocatedDocument}
    (found : collection.locate filter test = .ok (some located)) :
    collection.IsLocated located := by
  unfold locate at found
  split at found
  · simp only at found
    split at found
    · cases found
    · rename_i id _ encoded isEncoded
      obtain ⟨document, decodes, found⟩ := Result.bind_eq_ok.mp found
      have isLocated := Except.ok.inj found
      split_ifs at isLocated
      obtain rfl := Option.some.inj isLocated
      exact ⟨JsMap.get?_eq_some.mp isEncoded, decodes_of_lift decodes⟩
  · exact isLocated_of_firstMatch (fun _ => mem_candidates) found

/-- All matches among stored candidates are stored. -/
theorem isLocated_of_allMatches
    {entries : List (JsString × Bytes)}
    {located : List LocatedDocument}
    (stored : ∀ entry ∈ entries, entry ∈ collection.documents.entries)
    (found : allMatches test entries = .ok located) :
    ∀ document ∈ located, collection.IsLocated document := by
  induction entries generalizing located with
  | nil =>
      obtain rfl := Except.ok.inj found
      simp
  | cons entry rest inductionHypothesis =>
      obtain ⟨key, encoded⟩ := entry
      rw [List.forall_mem_cons] at stored
      obtain ⟨document, decodes, found⟩ := Result.bind_eq_ok.mp found
      obtain ⟨later, isLater, found⟩ := Result.bind_eq_ok.mp found
      have laterLocated := inductionHypothesis stored.2 isLater
      have isResult := Except.ok.inj found
      split_ifs at isResult
      · subst isResult
        rw [List.forall_mem_cons]
        exact ⟨⟨stored.1, decodes_of_lift decodes⟩, laterLocated⟩
      · subst isResult
        exact laterLocated

/-- What is stored under the key of a located document is the document. -/
theorem IsLocated.document_eq
    {located : LocatedDocument}
    (isLocated : collection.IsLocated located)
    {document : Document}
    (stores : collection.Stores located.key document) :
    located.document = document := by
  obtain ⟨encoded, member, decodes⟩ := stores
  rw [encoded_unique member isLocated.stored, isLocated.decodes] at decodes
  exact Except.ok.inj decodes

end Locating

end Collection

end SinterDb
