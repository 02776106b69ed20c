import SinterDb.Storage.ScanEquivalence
import SinterDb.Protocol.Canonical

namespace SinterDb

open Unicode

/-!
# Which stored documents can be read

A write encodes its document and stores the bytes, and every later read decodes
them.  The decoder drops a byte order mark in front of a text, so not all bytes
that a write has accepted give the document back.
-/

/-- Reading the bytes gives a document that has the key as its id and that is
written as the same bytes. -/
def ReadsBack (key : JsString) (encoded : Bytes) : Prop :=
  ∃ document id, decodeDocument encoded = .ok document ∧
    encodeDocument document = .ok encoded ∧
    Document.get? document idField = some (.customId id) ∧
    id.toHexString = key

section Encodings

variable {source document : Document} {encoded : Bytes}

/-- A document that its own encoding gives back has no byte order marks, and
neither has any other document with this encoding. -/
theorem unmarked_of_decoded
    (encodes : encodeDocument source = .ok encoded)
    (decodes : decodeDocument encoded = .ok document)
    (again : encodeDocument document = .ok encoded) :
    (DocumentValue.document source).Unmarked := by
  have restores := decodeDocument_of_encoded encodes decodes
  obtain ⟨encodable, fits, rfl⟩ := encodeDocumentValue_ok.mp encodes
  obtain ⟨readable, small, sameBytes⟩ := encodeDocumentValue_ok.mp again
  unfold maxPayloadSize at fits small
  have same :
      (DocumentValue.document document).SameValue (.document source) :=
    (DocumentValue.raw_append_inj readable.1 encodable.1 (by omega) (by omega)
      (congrArg (· ++ []) sameBytes.symm)).1
  exact (DocumentValue.restore_textLength restores).2
    (same.textLength_eq (DocumentValue.restore_distinctKeys restores))

/-- A document without byte order marks is decoded, and what comes back has the
same encoding. -/
theorem decoded_of_unmarked
    (distinct : (DocumentValue.document source).DistinctKeys)
    (unmarked : (DocumentValue.document source).Unmarked)
    (encodes : encodeDocument source = .ok encoded) :
    ∃ document, decodeDocument encoded = .ok document ∧
      encodeDocument document = .ok encoded := by
  obtain ⟨encodable, fits, rfl⟩ := encodeDocumentValue_ok.mp encodes
  obtain ⟨result, restores, same⟩ :=
    DocumentValue.restore_of_unmarked distinct unmarked
  cases result with
  | document fields =>
      have decodes :
          decodeDocument (DocumentValue.document source).raw = .ok fields := by
        rw [decodeDocument, decodeDocumentValue_raw encodable fits, restores]
        rfl
      obtain ⟨readable, small⟩ :=
        hasKey_iff.mp (hasKey_of_decoded encodes decodes)
      have sameBytes :=
        same.raw_eq (DocumentValue.restore_distinctKeys restores) distinct
          readable.1
      exact ⟨fields, decodes,
        encodeDocumentValue_ok.mpr ⟨readable, small, sameBytes.symm⟩⟩
  | _ =>
      simp [DocumentValue.SameValue] at same

end Encodings

/-- What is stored can be read back exactly when the document that was stored
has no byte order marks. -/
theorem StoredAs.readsBack_iff
    {key : JsString}
    {encoded : Bytes}
    (stored : StoredAs key encoded)
    {source : Document}
    (distinct : (DocumentValue.document source).DistinctKeys)
    (encodes : encodeDocument source = .ok encoded) :
    ReadsBack key encoded ↔ (DocumentValue.document source).Unmarked := by
  constructor
  · rintro ⟨document, id, decodes, again, -, -⟩
    exact unmarked_of_decoded encodes decodes again
  · intro unmarked
    obtain ⟨document, decodes, again⟩ :=
      decoded_of_unmarked distinct unmarked encodes
    obtain ⟨-, id, hasId, isKey⟩ := stored.decoded decodes
    exact ⟨document, id, decodes, again, hasId, isKey⟩

namespace Collection

/--
In every state that writes lead to, an entry can be read back, under its own
key and with its own bytes, exactly when some document without byte order marks
is encoded as these bytes.  It is the same for every document that is encoded
so, and an entry that can be decoded at all gives a document with the id of its
key.
-/
theorem run_readsBack_iff
    (calls : List (WriteCall × Except Thrown Unit))
    {key : JsString}
    {encoded : Bytes}
    (stored : (key, encoded) ∈ (empty.run calls).documents.entries) :
    (ReadsBack key encoded ↔ ∃ source,
        (DocumentValue.document source).DistinctKeys ∧
          (DocumentValue.document source).Unmarked ∧
            encodeDocument source = .ok encoded) ∧
      (∀ source, (DocumentValue.document source).DistinctKeys →
        encodeDocument source = .ok encoded →
          (ReadsBack key encoded ↔
            (DocumentValue.document source).Unmarked)) ∧
      ∀ document, decodeDocument encoded = .ok document →
        ∃ id, Document.get? document idField = some (.customId id) ∧
          id.toHexString = key := by
  have storedAs := (sound_run sound_empty calls).stored key encoded stored
  refine ⟨⟨?_, ?_⟩,
    fun source distinct encodes => storedAs.readsBack_iff distinct encodes,
    fun document decodes => (storedAs.decoded decodes).2⟩
  · rintro ⟨document, id, decodes, again, -, -⟩
    obtain ⟨source, -, encodes, -, -⟩ := storedAs
    have distinct :=
      DocumentValue.restore_distinctKeys
        (decodeDocument_of_encoded encodes decodes)
    exact ⟨document, distinct, unmarked_of_decoded again decodes again, again⟩
  · rintro ⟨source, distinct, unmarked, encodes⟩
    exact (storedAs.readsBack_iff distinct encodes).mpr unmarked

/-- A document as it is stored. -/
def unmarkedDocument : Document :=
  [(idField, .customId (plainId 1)), (utf16 "n", .number (.ofInt 7))]

/-- A document with a byte order mark in front of a text. -/
def markedDocument : Document :=
  [(idField, .customId (plainId 2)), (utf16 "n", .string [0xFEFF, 0x61])]

/-- Both documents are inserted into a collection with an index. -/
def markedRun : List (WriteCall × Except Thrown Unit) :=
  [(.createIndex { field := utf16 "n" }, .ok ()),
    (.insertOne (plainId 3) unmarkedDocument, .ok ()),
    (.insertOne (plainId 3) markedDocument, .ok ())]

/-- The first of the two documents can be read back and the second cannot. -/
theorem run_readsBack_iff_markedRun :
    ∃ plain marked,
      (empty.run markedRun).documents.entries =
          [((plainId 1).toHexString, plain),
            ((plainId 2).toHexString, marked)] ∧
        ReadsBack (plainId 1).toHexString plain ∧
        ¬ ReadsBack (plainId 2).toHexString marked := by
  have entries :
      (empty.run markedRun).documents.entries =
        [((plainId 1).toHexString,
            (DocumentValue.document unmarkedDocument).raw),
          ((plainId 2).toHexString,
            (DocumentValue.document markedDocument).raw)] := by
    decide +kernel
  have isPlain :=
    (run_readsBack_iff markedRun (by rw [entries]; exact .head _)).2.1
      unmarkedDocument (by decide +kernel) (by decide +kernel)
  have isMarked :=
    (run_readsBack_iff markedRun
      (by rw [entries]; exact .tail _ (.head _))).2.1
      markedDocument (by decide +kernel) (by decide +kernel)
  exact ⟨_, _, entries, isPlain.mpr (by decide +kernel),
    fun reads => absurd (isMarked.mp reads) (by decide +kernel)⟩

end Collection

end SinterDb
