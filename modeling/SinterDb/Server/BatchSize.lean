import SinterDb.Server.CursorManager
import SinterDb.Protocol.Message

namespace SinterDb

open Unicode

/-!
# The sizes of batches

A batch of more than one document is within the byte limit that it was built
with, so the message that carries it is within the limit of the protocol.
-/

/-- `toBatchDocument`. -/
def toBatchDocument (batch : CursorBatch) : Document :=
  [(utf16 "cursorId",
      match batch.cursorId with
      | none => .null
      | some cursorId => .number (.ofInt cursorId)),
    (utf16 "documents", .array (batch.documents.map .document))]

/-- The payload of the `Result` message that a session sends for a value. -/
def resultPayload (value : Document) : Document :=
  [(utf16 "value", .document value)]

/-- The estimated sizes of a list of documents together. -/
def estimatedBytes (documents : List Document) : Nat :=
  (documents.map fun document => estimateEncodedSize (.document document)).sum

/-- One more document adds its own size. -/
theorem estimatedBytes_concat
    (documents : List Document)
    (document : Document) :
    estimatedBytes (documents ++ [document]) =
      estimatedBytes documents + estimateEncodedSize (.document document) := by
  simp [estimatedBytes]

/-- The first document of a batch is never refused; the later ones must fit. -/
def WithinLimit (maxBatchBytes : Nat) (documents : List Document) : Prop :=
  2 ≤ documents.length → estimatedBytes documents ≤ maxBatchBytes

section

variable {σ : Type} {next : σ → Option Document × σ}

/-- The loop keeps a batch within the limit. -/
theorem takeLoop_withinLimit
    {maxBatchBytes room bytes : Nat}
    {state : CursorState σ}
    {documents : List Document}
    (within : WithinLimit maxBatchBytes documents)
    (counted : bytes = estimatedBytes documents) :
    WithinLimit maxBatchBytes
      (takeLoop next maxBatchBytes room state documents bytes).1 := by
  induction room generalizing state documents bytes with
  | zero =>
      exact within
  | succ room inductionHypothesis =>
      unfold takeLoop
      split
      · exact within
      · rename_i document iterator taken
        dsimp only
        split_ifs with overflows
        · exact within
        · refine inductionHypothesis ?_ ?_
          · intro several
            rw [estimatedBytes_concat, ← counted]
            rw [List.length_append, List.length_singleton] at several
            rw [not_and, Nat.not_lt] at overflows
            exact overflows (by omega)
          · rw [estimatedBytes_concat, counted]

/-- A batch is within the limit. -/
theorem takeBatch_withinLimit
    (next : σ → Option Document × σ)
    (state : CursorState σ)
    (batchSize maxBatchBytes : Nat) :
    WithinLimit maxBatchBytes
      (takeBatch next state batchSize maxBatchBytes).1 := by
  unfold takeBatch
  split
  · refine takeLoop_withinLimit ?_ ?_
    · intro several
      rw [List.length_singleton] at several
      omega
    · simp [estimatedBytes]
  · refine takeLoop_withinLimit ?_ rfl
    intro several
    rw [List.length_nil] at several
    omega

end

/-- The documents of a batch take no more bytes than was estimated. -/
theorem sum_raw_le_estimatedBytes (documents : List Document) :
    ((documents.map DocumentValue.document).map
        fun value => value.raw.length).sum ≤
      estimatedBytes documents := by
  rw [List.map_map]
  refine List.sum_le_sum ?_
  intro document _
  exact length_raw_le_estimateEncodedSize _

/-- The cursor ID of a batch takes at most nine bytes. -/
theorem length_raw_cursorId_le (cursorId : Option Nat) :
    (match cursorId with
      | none => DocumentValue.null
      | some cursorId => .number (.ofInt cursorId)).raw.length ≤ 9 := by
  cases cursorId with
  | none =>
      simp [DocumentValue.raw]
  | some cursorId =>
      simp only [DocumentValue.raw]
      exact length_rawNumber_le _

/-- A result has 58 bytes at most around the documents of its batch. -/
theorem length_raw_resultPayload_le (batch : CursorBatch) :
    (DocumentValue.document
        (resultPayload (toBatchDocument batch))).raw.length ≤
      58 + estimatedBytes batch.documents := by
  have documents := sum_raw_le_estimatedBytes batch.documents
  have cursorId := length_raw_cursorId_le batch.cursorId
  have lengths :
      (TextEncoder.encode (utf16 "value")).length = 5 ∧
        (TextEncoder.encode (utf16 "cursorId")).length = 8 ∧
        (TextEncoder.encode (utf16 "documents")).length = 9 := by
    decide +kernel
  simp only [resultPayload, toBatchDocument,
    DocumentValue.length_raw_document, DocumentValue.length_raw_array,
    rawField, lengthPrefixed, List.map_cons, List.map_nil, List.sum_cons,
    List.sum_nil, List.length_append, BigEndian.length_encode, lengths.1,
    lengths.2.1, lengths.2.2]
  omega

/-- The payload of a result has the field that the message needs. -/
theorem validateMessagePayload_result (value : Document) :
    validateMessagePayload .result (resultPayload value) = .ok () := by
  rfl

/--
A value is never encoded in more bytes than estimated, and a batch of more than
one document, built with the default limit, makes a result that fits in a
message.
-/
theorem batches_fit_in_a_message :
    (∀ value bytes,
      encodeDocumentValue value = .ok bytes →
        bytes.length ≤ estimateEncodedSize value) ∧
    ∀ (σ : Type) (next : σ → Option Document × σ) (state : CursorState σ)
      (batchSize : Nat) (cursorId : Option Nat),
      let documents :=
        (takeBatch next state batchSize defaultCursorBatchBytes).1
      let payload :=
        resultPayload
          (toBatchDocument { cursorId := cursorId, documents := documents })
      2 ≤ documents.length →
        (DocumentValue.document payload).raw.length ≤ maxPayloadSize ∧
        ((DocumentValue.document payload).Encodable →
          ∃ bytes,
            encodeMessagePayload .result payload = .ok bytes ∧
              bytes.length ≤ maxPayloadSize) := by
  refine ⟨?_, ?_⟩
  · intro value bytes encodes
    obtain ⟨-, -, rfl⟩ := encodeDocumentValue_ok.mp encodes
    exact length_raw_le_estimateEncodedSize value
  · intro σ next state batchSize cursorId documents payload several
    have within :
        estimatedBytes documents ≤ defaultCursorBatchBytes :=
      takeBatch_withinLimit next state batchSize defaultCursorBatchBytes
        several
    have around :
        (DocumentValue.document payload).raw.length ≤
          58 + estimatedBytes documents :=
      length_raw_resultPayload_le _
    have fits :
        (DocumentValue.document payload).raw.length ≤ maxPayloadSize := by
      unfold defaultCursorBatchBytes at within
      unfold maxPayloadSize
      omega
    refine ⟨fits, ?_⟩
    intro encodable
    refine ⟨(DocumentValue.document payload).raw, ?_, fits⟩
    rw [encodeMessagePayload, validateMessagePayload_result]
    exact encodeDocumentValue_ok.mpr ⟨encodable, fits, rfl⟩

end SinterDb
