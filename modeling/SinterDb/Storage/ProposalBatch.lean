import SinterDb.Storage.FindScan
import SinterDb.Storage.IndexSetRepresentation
import SinterDb.Storage.Proposal

namespace SinterDb

open Unicode

/-!
# Proposals are batches

The changes that a write proposes are a batch over the decoded documents, and
carrying out the operations leads to the documents of that batch.
-/

namespace Collection

/-- The stored documents that can be decoded. -/
def decoded (collection : Collection) : Documents :=
  collection.documents.entries.filterMap fun entry =>
    match decodeDocument entry.2 with
    | .ok document => some (entry.1, document)
    | .error _ => none

/-- The documents of another collection are those that changes lead to. -/
structure Fits
    (collection : Collection)
    (changes : List DocumentChange)
    (final : Collection) : Prop where
  written :
    ∀ change ∈ changes, ∀ encoded,
      (change.key, encoded) ∈ final.documents.entries →
        ∃ document, decodeDocument encoded = .ok document ∧
          change.after = some document
  present :
    ∀ change ∈ changes, ∀ after, change.after = some after →
      final.Stores change.key after
  others :
    ∀ key encoded, key ∉ changes.map DocumentChange.key →
      ((key, encoded) ∈ final.documents.entries ↔
        (key, encoded) ∈ collection.documents.entries)

section Decoded

variable
  {collection final : Collection}
  {changes : List DocumentChange}

/-- The decoded documents are the stored ones. -/
theorem mem_decoded
    {key : JsString}
    {document : Document} :
    (key, document) ∈ collection.decoded ↔
      collection.Stores key document := by
  unfold decoded Stores
  rw [List.mem_filterMap]
  constructor
  · rintro ⟨⟨stored, encoded⟩, member, isEntry⟩
    simp only at isEntry
    split at isEntry
    · rename_i other decodes
      obtain ⟨rfl, rfl⟩ := Prod.mk.inj (Option.some.inj isEntry)
      exact ⟨encoded, member, decodes⟩
    · cases isEntry
  · rintro ⟨encoded, member, decodes⟩
    exact ⟨(key, encoded), member, by simp [decodes]⟩

/-- The keys of decoded documents are stored keys, in their order. -/
theorem keys_decoded_sublist
    (collection : Collection) :
    collection.decoded.keys.Sublist collection.documents.keys := by
  unfold decoded Documents.keys JsMap.keys
  induction collection.documents.entries with
  | nil =>
      simp
  | cons entry rest inductionHypothesis =>
      rw [List.filterMap_cons, List.map_cons]
      cases decodeDocument entry.2 with
      | ok document =>
          exact inductionHypothesis.cons_cons entry.1
      | error error =>
          exact inductionHypothesis.cons entry.1

/-- The decoded documents have distinct keys and canonical values. -/
theorem Sound.stored_decoded
    (sound : collection.Sound) :
    collection.decoded.Stored := by
  refine ⟨collection.documents.nodup_keys.sublist
    (keys_decoded_sublist collection), ?_⟩
  rintro ⟨key, document⟩ member
  obtain ⟨encoded, stored, decodes⟩ := mem_decoded.mp member
  exact sound.keyed stored decodes

/-- A document written by a batch. -/
theorem mem_written
    {key : JsString}
    {document : Document} :
    (key, document) ∈ SinterDb.written changes ↔
      ∃ change ∈ changes, change.key = key ∧
        change.after = some document := by
  unfold SinterDb.written
  rw [List.mem_filterMap]
  refine exists_congr fun change => and_congr_right fun _ => ?_
  rw [Option.map_eq_some_iff]
  constructor
  · rintro ⟨after, isAfter, same⟩
    obtain ⟨rfl, rfl⟩ := Prod.mk.inj same
    exact ⟨rfl, isAfter⟩
  · rintro ⟨rfl, isAfter⟩
    exact ⟨document, isAfter, rfl⟩

/-- Changes lead to the decoded documents that they say. -/
theorem Fits.mem_decoded
    (fits : collection.Fits changes final)
    (key : JsString)
    (document : Document) :
    (key, document) ∈ final.decoded ↔
      (key, document) ∈ collection.decoded.changed changes := by
  rw [Collection.mem_decoded, Documents.changed, List.mem_append, mem_written,
    List.mem_filter, Collection.mem_decoded]
  simp only [decide_eq_true_eq]
  constructor
  · rintro ⟨encoded, member, decodes⟩
    by_cases isChanged : key ∈ changes.map DocumentChange.key
    · obtain ⟨change, inChanges, rfl⟩ := List.mem_map.mp isChanged
      obtain ⟨after, isAfter, same⟩ :=
        fits.written change inChanges encoded member
      obtain rfl := Except.ok.inj (decodes.symm.trans isAfter)
      exact .inl ⟨change, inChanges, rfl, same⟩
    · exact .inr
        ⟨⟨encoded, (fits.others key encoded isChanged).mp member, decodes⟩,
          isChanged⟩
  · rintro (⟨change, inChanges, rfl, isAfter⟩ |
      ⟨⟨encoded, member, decodes⟩, isOther⟩)
    · exact fits.present change inChanges document isAfter
    · exact ⟨encoded, (fits.others key encoded isOther).mpr member, decodes⟩

/-- Changes lead to the decoded documents of their batch. -/
theorem Fits.perm
    (fits : collection.Fits changes final)
    (sound : collection.Sound)
    (batch : Batch collection.decoded changes) :
    final.decoded.Perm (collection.decoded.changed changes) := by
  have own : final.decoded.keys.Nodup :=
    final.documents.nodup_keys.sublist (keys_decoded_sublist final)
  have changed := (stored_changed sound.stored_decoded batch).distinct
  rw [List.perm_ext_iff_of_nodup (own.of_map _) (changed.of_map _)]
  rintro ⟨key, document⟩
  exact fits.mem_decoded key document

/-- Changes lead to documents that can be decoded. -/
theorem Fits.allDecode
    (fits : collection.Fits changes final)
    (decodes : AllDecode collection.documents.entries) :
    AllDecode final.documents.entries := by
  rintro ⟨key, encoded⟩ member
  by_cases isChanged : key ∈ changes.map DocumentChange.key
  · obtain ⟨change, inChanges, rfl⟩ := List.mem_map.mp isChanged
    obtain ⟨document, isDocument, -⟩ :=
      fits.written change inChanges encoded member
    exact ⟨document, isDocument⟩
  · exact decodes _ ((fits.others key encoded isChanged).mp member)

/-- Only the documents matter. -/
theorem Fits.congr
    {other : Collection}
    (fits : collection.Fits changes final)
    (same : other.documents = final.documents) :
    collection.Fits changes other := by
  have stores : ∀ key document,
      other.Stores key document ↔ final.Stores key document := by
    intro key document
    unfold Stores
    rw [same]
  refine ⟨?_, ?_, ?_⟩
  · rw [same]
    exact fits.written
  · intro change member after isAfter
    exact (stores _ _).mpr (fits.present change member after isAfter)
  · rw [same]
    exact fits.others

end Decoded

/-- A change stores what an entry encodes. -/
def Encodes (change : DocumentChange) (entry : JsString × Bytes) : Prop :=
  change.key = entry.1 ∧
    ∃ after, decodeDocument entry.2 = .ok after ∧ change.after = some after

section Fitting

variable
  {collection : Collection}
  {changes : List DocumentChange}

/-- Changes and entries that belong together have the same keys. -/
theorem keys_of_encodes
    {pending : List (JsString × Bytes)}
    (paired : List.Forall₂ Encodes changes pending) :
    changes.map DocumentChange.key = pending.map Prod.fst := by
  induction paired with
  | nil =>
      rfl
  | cons encodes _ inductionHypothesis =>
      rw [List.map_cons, List.map_cons, encodes.1, inductionHypothesis]

/-- Putting documents fits the changes that belong to them. -/
theorem fits_putAll
    {pending : List (JsString × Bytes)}
    (paired : List.Forall₂ Encodes changes pending)
    (distinct : (changes.map DocumentChange.key).Nodup) :
    collection.Fits changes (collection.putAll pending) := by
  have sameKeys := keys_of_encodes paired
  have distinctPending := sameKeys ▸ distinct
  have isEntry : ∀ entry,
      entry ∈ (collection.putAll pending).documents.entries ↔
        entry ∈ pending ∨
          entry ∈ collection.documents.entries ∧
            entry.1 ∉ pending.map Prod.fst := by
    intro entry
    rw [putAll_documents]
    exact JsMap.mem_entries_foldl_set_iff distinctPending
  have isPending :
      ∀ change ∈ changes, ∃ entry ∈ pending, Encodes change entry := by
    intro change member
    obtain ⟨position, inside, rfl⟩ := List.mem_iff_getElem.mp member
    have paired := List.forall₂_iff_get.mp paired
    refine ⟨pending.get ⟨position, paired.1 ▸ inside⟩, List.get_mem _ _, ?_⟩
    exact paired.2 position inside (paired.1 ▸ inside)
  refine ⟨?_, ?_, ?_⟩
  · intro change member encoded stored
    obtain ⟨entry, inPending, isKey, after, decodes, isAfter⟩ :=
      isPending change member
    rcases (isEntry _).mp stored with isNew | ⟨-, notPending⟩
    · have same :=
        List.inj_on_of_nodup_map distinctPending isNew inPending isKey
      obtain rfl := congrArg Prod.snd same
      exact ⟨after, decodes, isAfter⟩
    · exact absurd (List.mem_map.mpr ⟨entry, inPending, isKey.symm⟩)
        notPending
  · intro change member after isAfter
    obtain ⟨entry, inPending, isKey, other, decodes, isOther⟩ :=
      isPending change member
    obtain rfl := Option.some.inj (isAfter.symm.trans isOther)
    refine ⟨entry.2, (isEntry _).mpr (.inl ?_), decodes⟩
    rw [isKey]
    exact inPending
  · intro key encoded isOther
    rw [sameKeys] at isOther
    rw [isEntry]
    constructor
    · rintro (isNew | ⟨stored, -⟩)
      · exact absurd (List.mem_map.mpr ⟨_, isNew, rfl⟩) isOther
      · exact stored
    · exact fun stored => .inr ⟨stored, isOther⟩

/-- Removing documents fits the changes that remove them. -/
theorem fits_removeAll
    (removes : ∀ change ∈ changes, change.after = none) :
    collection.Fits changes
      (collection.removeAll (changes.map DocumentChange.key)) := by
  obtain ⟨-, entries⟩ :=
    removeAll_spec collection (changes.map DocumentChange.key)
  have isEntry : ∀ entry,
      entry ∈ (collection.removeAll
          (changes.map DocumentChange.key)).documents.entries ↔
        entry ∈ collection.documents.entries ∧
          entry.1 ∉ changes.map DocumentChange.key := by
    intro entry
    rw [entries, List.mem_filter]
    simp
  refine ⟨?_, ?_, ?_⟩
  · intro change member encoded stored
    exact absurd (List.mem_map_of_mem member) ((isEntry _).mp stored).2
  · intro change member after isAfter
    rw [removes change member] at isAfter
    cases isAfter
  · intro key encoded isOther
    rw [isEntry]
    exact and_iff_left isOther

/-- Changes of located documents are a batch. -/
theorem batch_of_located
    (distinct : (changes.map DocumentChange.key).Nodup)
    (isLocated :
      ∀ change ∈ changes, ∃ located,
        collection.IsLocated located ∧ change.key = located.key ∧
          change.before = some located.document)
    (keyed :
      ∀ change ∈ changes, ∀ after, change.after = some after →
        after.Keyed) :
    Batch collection.decoded changes := by
  refine ⟨distinct, ?_, keyed⟩
  intro change member document
  obtain ⟨located, found, isKey, isBefore⟩ := isLocated change member
  rw [mem_decoded, isKey, isBefore]
  constructor
  · rintro ⟨⟩
    exact ⟨located.encoded, found.stored, found.decodes⟩
  · intro stores
    rw [found.document_eq stores]

end Fitting

/-- What a write proposes is a batch, and its operations fit it. -/
structure Proposed
    (collection : Collection)
    (proposal : Proposal) : Prop where
  batch : Batch collection.decoded proposal.changes
  fits :
    collection.Fits proposal.changes
      (collection.carryOut proposal.operations)

section Proposing

variable
  {collection : Collection}
  {proposal : Proposal}

/-- Nothing is a batch. -/
theorem proposed_nothing
    (collection : Collection)
    (result : WriteResult) :
    collection.Proposed (.nothing result) :=
  ⟨⟨List.nodup_nil, nofun, nofun⟩, ⟨nofun, nofun, fun _ _ _ => Iff.rfl⟩⟩

/-- An insert proposes a batch. -/
theorem proposed_insert
    {generated : CustomId}
    {document : Document}
    {use : CustomId → WriteResult}
    (notEmpty : IndexSet.isEmpty collection.indexes = false)
    (proposes :
      collection.proposeInsert generated document use = .ok proposal) :
    collection.Proposed proposal := by
  obtain ⟨prepared, prepares, proposes⟩ := Result.bind_eq_ok.mp proposes
  obtain ⟨isPrepared, -⟩ := prepareInsert_ok prepares
  rw [if_neg (by simp [notEmpty])] at proposes
  obtain ⟨after, decodes, same⟩ := Result.bind_eq_ok.mp proposes
  obtain rfl := Except.ok.inj same
  have decodes := decodes_of_lift decodes
  refine ⟨⟨by simp, ?_, ?_⟩, ?_⟩
  · intro change member other
    obtain rfl := List.mem_singleton.mp member
    simp only [mem_decoded]
    constructor
    · nofun
    · intro stores
      exact absurd stores.mem_keys isPrepared.fresh
  · intro change member other isAfter
    obtain rfl := List.mem_singleton.mp member
    obtain rfl := Option.some.inj isAfter
    exact fun _ _ =>
      hasKey_of_resolveField (isPrepared.stored.decoded decodes).1
  · exact @fits_putAll collection _ [(prepared.key, prepared.encoded)]
      (.cons ⟨rfl, after, decodes, rfl⟩ .nil) (by simp)

/-- Another encoding of a located document proposes a batch. -/
theorem proposed_replacement
    {located : LocatedDocument}
    {encoded : Bytes}
    (isLocated : collection.IsLocated located)
    (stored : StoredAs located.key encoded)
    (proposes : proposeReplacement located encoded = .ok proposal) :
    collection.Proposed proposal := by
  obtain ⟨after, decodes, same⟩ := Result.bind_eq_ok.mp proposes
  obtain rfl := Except.ok.inj same
  have decodes := decodes_of_lift decodes
  refine ⟨batch_of_located (by simp) ?_ ?_, ?_⟩
  · intro change member
    obtain rfl := List.mem_singleton.mp member
    exact ⟨located, isLocated, rfl, rfl⟩
  · intro change member other isAfter
    obtain rfl := List.mem_singleton.mp member
    obtain rfl := Option.some.inj isAfter
    exact fun _ _ => hasKey_of_resolveField (stored.decoded decodes).1
  · exact @fits_putAll collection _ [(located.key, encoded)]
      (.cons ⟨rfl, after, decodes, rfl⟩ .nil) (by simp)

/-- An upsert of an update proposes a batch. -/
theorem proposed_upsertFromUpdate
    {filter : Document}
    {apply : CompiledUpdate}
    {upserts : Bool}
    {generated : CustomId}
    (notEmpty : IndexSet.isEmpty collection.indexes = false)
    (proposes :
      collection.proposeUpsertFromUpdate filter apply upserts generated =
        .ok proposal) :
    collection.Proposed proposal := by
  unfold proposeUpsertFromUpdate at proposes
  split_ifs at proposes
  · obtain ⟨document, -, proposes⟩ := Result.bind_eq_ok.mp proposes
    exact proposed_insert notEmpty proposes
  · obtain rfl := Except.ok.inj proposes
    exact proposed_nothing collection _

/-- `updateOne` proposes a batch. -/
theorem proposed_updateOne
    {filter update : Document}
    {upserts : Bool}
    {generated : CustomId}
    (sound : collection.Sound)
    (notEmpty : IndexSet.isEmpty collection.indexes = false)
    (proposes :
      collection.proposeUpdateOne filter update upserts generated =
        .ok proposal) :
    collection.Proposed proposal := by
  obtain ⟨test, -, proposes⟩ := Result.bind_eq_ok.mp proposes
  obtain ⟨apply, compiles, proposes⟩ := Result.bind_eq_ok.mp proposes
  obtain ⟨located, locates, proposes⟩ := Result.bind_eq_ok.mp proposes
  cases located with
  | none =>
      exact proposed_upsertFromUpdate notEmpty proposes
  | some located =>
      have isLocated := isLocated_of_locate locates
      obtain ⟨pending, prepares, proposes⟩ := Result.bind_eq_ok.mp proposes
      cases pending with
      | none =>
          obtain rfl := Except.ok.inj proposes
          exact proposed_nothing collection _
      | some prepared =>
          exact proposed_replacement isLocated
            (storedAs_of_prepareUpdate sound isLocated compiles prepares).2
            proposes

/-- `replaceOne` proposes a batch. -/
theorem proposed_replaceOne
    {filter replacement : Document}
    {upserts : Bool}
    {generated : CustomId}
    (sound : collection.Sound)
    (notEmpty : IndexSet.isEmpty collection.indexes = false)
    (proposes :
      collection.proposeReplaceOne filter replacement upserts generated =
        .ok proposal) :
    collection.Proposed proposal := by
  obtain ⟨test, -, proposes⟩ := Result.bind_eq_ok.mp proposes
  obtain ⟨-, -, proposes⟩ := Result.bind_eq_ok.mp proposes
  obtain ⟨located, locates, proposes⟩ := Result.bind_eq_ok.mp proposes
  cases located with
  | none =>
      simp only at proposes
      split_ifs at proposes
      · obtain ⟨document, -, proposes⟩ := Result.bind_eq_ok.mp proposes
        exact proposed_insert notEmpty proposes
      · obtain rfl := Except.ok.inj proposes
        exact proposed_nothing collection _
  | some located =>
      have isLocated := isLocated_of_locate locates
      obtain ⟨id, hasId, isKey⟩ := isLocated.id sound
      obtain ⟨document, replaces, proposes⟩ := Result.bind_eq_ok.mp proposes
      obtain ⟨encoded, encodes, proposes⟩ := Result.bind_eq_ok.mp proposes
      split_ifs at proposes
      · obtain rfl := Except.ok.inj proposes
        exact proposed_nothing collection _
      · refine proposed_replacement isLocated ?_ proposes
        rw [← isKey]
        refine storedAs_of_encoded encodes ?_
        rw [replacementFor_id hasId replaces, Document.get?_set, if_pos rfl]

/-- `deleteOne` proposes a batch. -/
theorem proposed_deleteOne
    {filter : Document}
    (proposes : collection.proposeDeleteOne filter = .ok proposal) :
    collection.Proposed proposal := by
  obtain ⟨test, -, proposes⟩ := Result.bind_eq_ok.mp proposes
  obtain ⟨located, locates, proposes⟩ := Result.bind_eq_ok.mp proposes
  cases located with
  | none =>
      obtain rfl := Except.ok.inj proposes
      exact proposed_nothing collection _
  | some located =>
      obtain rfl := Except.ok.inj proposes
      refine ⟨batch_of_located (by simp) ?_ (by simp), ?_⟩
      · intro change member
        obtain rfl := List.mem_singleton.mp member
        exact ⟨located, isLocated_of_locate locates, rfl, rfl⟩
      · exact @fits_removeAll collection
          [⟨located.key, some located.document, none⟩] (by simp)

/-- The keys of matches, in the order of the candidates. -/
theorem keys_allMatches
    {test : CompiledFilter}
    {entries : List (JsString × Bytes)}
    {located : List LocatedDocument}
    (found : allMatches test entries = .ok located) :
    (located.map LocatedDocument.key).Sublist (entries.map Prod.fst) := by
  induction entries generalizing located with
  | nil =>
      obtain rfl := Except.ok.inj found
      exact .slnil
  | cons entry rest inductionHypothesis =>
      obtain ⟨document, -, found⟩ := Result.bind_eq_ok.mp found
      obtain ⟨later, isLater, found⟩ := Result.bind_eq_ok.mp found
      have sublist := inductionHypothesis isLater
      have isResult := Except.ok.inj found
      split_ifs at isResult
      · subst isResult
        exact sublist.cons_cons entry.1
      · subst isResult
        exact sublist.cons entry.1

/-- The candidates have distinct keys. -/
theorem nodup_candidates
    (sound : collection.Sound)
    (filter : Document) :
    ((collection.candidates filter).map Prod.fst).Nodup := by
  rw [candidates_eq sound]
  exact collection.documents.nodup_keys.sublist
    (List.filter_sublist.map Prod.fst)

/-- `deleteMany` proposes a batch. -/
theorem proposed_deleteMany
    {filter : Document}
    (sound : collection.Sound)
    (notEmpty : IndexSet.isEmpty collection.indexes = false)
    (proposes : collection.proposeDeleteMany filter = .ok proposal) :
    collection.Proposed proposal := by
  obtain ⟨test, -, proposes⟩ := Result.bind_eq_ok.mp proposes
  obtain ⟨located, found, same⟩ := Result.bind_eq_ok.mp proposes
  obtain rfl := Except.ok.inj same
  rw [if_neg (by simp [notEmpty])]
  have isLocated :=
    isLocated_of_allMatches (fun _ => mem_candidates) found
  have keys :
      (located.map fun entry =>
          (⟨entry.key, some entry.document, none⟩ : DocumentChange)).map
          DocumentChange.key =
        located.map LocatedDocument.key := by
    rw [List.map_map]
    rfl
  refine ⟨batch_of_located ?_ ?_ ?_, ?_⟩
  · rw [keys]
    exact (nodup_candidates sound filter).sublist (keys_allMatches found)
  · intro change member
    obtain ⟨entry, inLocated, rfl⟩ := List.mem_map.mp member
    exact ⟨entry, isLocated entry inLocated, rfl, rfl⟩
  · intro change member after isAfter
    obtain ⟨entry, -, rfl⟩ := List.mem_map.mp member
    cases isAfter
  · simp only [carryOut_deletes]
    rw [← keys]
    apply fits_removeAll
    intro change member
    obtain ⟨entry, -, rfl⟩ := List.mem_map.mp member
    rfl

/-- One candidate in the loop of `updateMany` over a collection with
indexes. -/
theorem encodes_collectUpdate
    {test : CompiledFilter}
    {apply : CompiledUpdate}
    {candidate : JsString × Bytes}
    {updates : PendingUpdates}
    (collects : collectUpdate true test apply candidate = .ok updates) :
    List.Forall₂ Encodes updates.changes updates.pending ∧
      (updates.changes.map DocumentChange.key).Sublist [candidate.1] := by
  obtain ⟨key, encoded⟩ := candidate
  unfold collectUpdate at collects
  obtain ⟨document, -, collects⟩ := Result.bind_eq_ok.mp collects
  cases passes : test document with
  | false =>
      simp only [passes, Bool.not_false, if_true] at collects
      obtain rfl := Except.ok.inj collects
      exact ⟨.nil, List.nil_sublist _⟩
  | true =>
      simp only [passes, Bool.not_true, Bool.false_eq_true,
        if_false] at collects
      obtain ⟨pending, prepares, collects⟩ := Result.bind_eq_ok.mp collects
      cases pending with
      | none =>
          obtain rfl := Except.ok.inj collects
          exact ⟨.nil, List.nil_sublist _⟩
      | some prepared =>
          obtain ⟨after, decodes, same⟩ := Result.bind_eq_ok.mp collects
          obtain rfl := Except.ok.inj same
          obtain ⟨changed, -, prepares⟩ := Result.bind_eq_ok.mp prepares
          obtain ⟨bytes, -, prepares⟩ := Result.bind_eq_ok.mp prepares
          have isPrepared := Except.ok.inj prepares
          split_ifs at isPrepared
          obtain rfl := Option.some.inj isPrepared
          exact ⟨.cons ⟨rfl, after, decodes_of_lift decodes, rfl⟩ .nil,
            .refl _⟩

/-- The loop of `updateMany` over a collection with indexes. -/
theorem encodes_collectUpdates
    {test : CompiledFilter}
    {apply : CompiledUpdate}
    {entries : List (JsString × Bytes)}
    {updates : PendingUpdates}
    (collects : collectUpdates true test apply entries = .ok updates) :
    List.Forall₂ Encodes updates.changes updates.pending ∧
      (updates.changes.map DocumentChange.key).Sublist
        (entries.map Prod.fst) := by
  induction entries generalizing updates with
  | nil =>
      obtain rfl := Except.ok.inj collects
      exact ⟨.nil, .slnil⟩
  | cons entry rest inductionHypothesis =>
      obtain ⟨first, isFirst, collects⟩ := Result.bind_eq_ok.mp collects
      obtain ⟨later, isLater, same⟩ := Result.bind_eq_ok.mp collects
      obtain rfl := Except.ok.inj same
      obtain ⟨firstPaired, firstKeys⟩ := encodes_collectUpdate isFirst
      obtain ⟨laterPaired, laterKeys⟩ := inductionHypothesis isLater
      refine ⟨List.rel_append firstPaired laterPaired, ?_⟩
      simp only [PendingUpdates.append, List.map_append, List.map_cons]
      exact firstKeys.append laterKeys

/-- `updateMany` proposes a batch. -/
theorem proposed_updateMany
    {filter update : Document}
    {upserts : Bool}
    {generated : CustomId}
    (sound : collection.Sound)
    (notEmpty : IndexSet.isEmpty collection.indexes = false)
    (proposes :
      collection.proposeUpdateMany filter update upserts generated =
        .ok proposal) :
    collection.Proposed proposal := by
  obtain ⟨test, -, proposes⟩ := Result.bind_eq_ok.mp proposes
  obtain ⟨apply, compiles, proposes⟩ := Result.bind_eq_ok.mp proposes
  obtain ⟨updates, collects, proposes⟩ := Result.bind_eq_ok.mp proposes
  split_ifs at proposes
  · exact proposed_upsertFromUpdate notEmpty proposes
  · obtain rfl := Except.ok.inj proposes
    have isUpdates :=
      updates_collectUpdates sound compiles (fun _ => mem_candidates) collects
    rw [notEmpty] at collects
    obtain ⟨paired, keys⟩ := encodes_collectUpdates collects
    have distinct := (nodup_candidates sound filter).sublist keys
    refine ⟨batch_of_located distinct ?_ ?_, ?_⟩
    · intro change member
      obtain ⟨located, encoded, after, isLocated, -, -, rfl⟩ :=
        isUpdates.isChange change member
      exact ⟨located, isLocated, rfl, rfl⟩
    · intro change member other isAfter
      obtain ⟨located, encoded, after, -, isPending, decodes, rfl⟩ :=
        isUpdates.isChange change member
      obtain rfl := Option.some.inj isAfter
      exact fun _ _ =>
        hasKey_of_resolveField
          ((isUpdates.stored _ isPending).decoded decodes).1
    · simp only [carryOut_puts]
      exact fits_putAll paired distinct

/-- What a call proposes is a batch. -/
theorem proposed_of_propose
    {call : WriteCall}
    (sound : collection.Sound)
    (notEmpty : IndexSet.isEmpty collection.indexes = false)
    (proposes : collection.propose call = some (.ok proposal)) :
    collection.Proposed proposal := by
  cases call with
  | insertOne generated document =>
      exact proposed_insert notEmpty (Option.some.inj proposes)
  | updateOne filter update upserts generated =>
      exact proposed_updateOne sound notEmpty (Option.some.inj proposes)
  | updateMany filter update upserts generated =>
      exact proposed_updateMany sound notEmpty (Option.some.inj proposes)
  | replaceOne filter replacement upserts generated =>
      exact proposed_replaceOne sound notEmpty (Option.some.inj proposes)
  | deleteOne filter =>
      exact proposed_deleteOne (Option.some.inj proposes)
  | deleteMany filter =>
      exact proposed_deleteMany sound notEmpty (Option.some.inj proposes)
  | insertMany generated documents =>
      cases proposes
  | createIndex input =>
      cases proposes
  | dropIndex name =>
      cases proposes

end Proposing

end Collection

end SinterDb
