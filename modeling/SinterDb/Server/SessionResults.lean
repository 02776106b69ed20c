import SinterDb.Protocol.TooDeep
import SinterDb.Server.SessionErrors

namespace SinterDb

open Unicode

/-!
# Results that are too deep

A stored document may have a hundred levels, and so may a message.  A result
wraps the documents that it carries, so it fails on the deepest of them: the
session then reports an error of the server.
-/

section Payloads

/-- A result is encodable as far as its value is. -/
theorem writable_resultPayload
    {value : Document}
    (writable : (DocumentValue.document value).Writable) :
    (DocumentValue.document (resultPayload value)).Writable := by
  have key : isWellFormed (utf16 "value") = true := isWellFormed_utf16 _
  refine (DocumentValue.allNodes_document _ _).mpr ⟨?_, ?_⟩
  · simp only [DocumentValue.isWritable, resultPayload, List.all_cons,
      List.all_nil, key, Bool.and_self]
  · intro field member
    cases List.mem_singleton.mp member
    exact writable

/-- A result has one level more than its value. -/
theorem height_resultPayload
    (value : Document) :
    (DocumentValue.document (resultPayload value)).height =
      (DocumentValue.document value).height + 1 := by
  unfold resultPayload
  rw [DocumentValue.height, DocumentValue.heightOfFields,
    DocumentValue.heightOfFields]
  exact Nat.max_eq_left (Nat.zero_le _)

/-- The answer to `findOne` has one level more than its document. -/
theorem height_toFindOneResult
    (document : Document) :
    (DocumentValue.document (Server.toFindOneResult (some document))).height =
      (DocumentValue.document document).height + 1 := by
  unfold Server.toFindOneResult
  rw [DocumentValue.height, DocumentValue.heightOfFields,
    DocumentValue.heightOfFields]
  exact Nat.max_eq_left (Nat.zero_le _)

/-- The answer to `findOne` is writable when its document is. -/
theorem writable_toFindOneResult
    {document : Document}
    (writable : (DocumentValue.document document).Writable) :
    (DocumentValue.document
      (Server.toFindOneResult (some document))).Writable := by
  have key : isWellFormed (utf16 "document") = true := isWellFormed_utf16 _
  refine (DocumentValue.allNodes_document _ _).mpr ⟨?_, ?_⟩
  · simp only [DocumentValue.isWritable, Server.toFindOneResult,
      List.all_cons, List.all_nil, key, Bool.and_self]
  · intro field member
    cases List.mem_singleton.mp member
    exact writable

/-- The answer to `find` is writable when its documents are. -/
theorem writable_toBatchDocument
    {batch : CursorBatch}
    (writable :
      ∀ document ∈ batch.documents,
        (DocumentValue.document document).Writable) :
    (DocumentValue.document (toBatchDocument batch)).Writable := by
  have keys :
      isWellFormed (utf16 "cursorId") = true ∧
        isWellFormed (utf16 "documents") = true :=
    ⟨isWellFormed_utf16 _, isWellFormed_utf16 _⟩
  refine (DocumentValue.allNodes_document _ _).mpr ⟨?_, ?_⟩
  · simp only [DocumentValue.isWritable, toBatchDocument, List.all_cons,
      List.all_nil, keys, Bool.and_self]
  · unfold toBatchDocument
    rw [List.forall_mem_cons, List.forall_mem_singleton]
    constructor
    · cases batch.cursorId <;> rfl
    · refine (DocumentValue.allNodes_array _ _).mpr ⟨rfl, ?_⟩
      intro value member
      rcases List.mem_map.mp member with ⟨document, inBatch, rfl⟩
      exact writable document inBatch

/-- The answer to `find` is within a height when its documents are two levels
below. -/
theorem height_toBatchDocument_le
    {batch : CursorBatch}
    {bound : Nat} :
    (DocumentValue.document (toBatchDocument batch)).height ≤ bound + 1 ↔
      ∀ document ∈ batch.documents,
        (DocumentValue.document document).height + 1 ≤ bound := by
  rw [DocumentValue.height_document_le]
  unfold toBatchDocument
  rw [List.forall_mem_cons, List.forall_mem_singleton]
  dsimp only
  have inside :
      (DocumentValue.array
          (batch.documents.map DocumentValue.document)).height + 1 ≤
          bound + 1 ↔
        ∀ document ∈ batch.documents,
          (DocumentValue.document document).height + 1 ≤ bound := by
    rw [Nat.add_le_add_iff_right, DocumentValue.height_array_le,
      List.forall_mem_map]
  constructor
  · rintro ⟨-, documents⟩
    exact inside.mp documents
  · intro documents
    refine ⟨?_, inside.mpr documents⟩
    cases batch.cursorId <;> exact Nat.succ_le_succ (Nat.zero_le _)

/-- Documents inside each other. -/
def deepDocument : Nat → Document
  | 0 => []
  | levels + 1 => [(utf16 "a", .document (deepDocument levels))]

/-- The levels of documents inside each other. -/
theorem height_deepDocument
    (levels : Nat) :
    (DocumentValue.document (deepDocument levels)).height = levels := by
  induction levels with
  | zero =>
      rfl
  | succ levels inductionHypothesis =>
      unfold deepDocument
      rw [DocumentValue.height, DocumentValue.heightOfFields,
        DocumentValue.heightOfFields, inductionHypothesis]
      exact Nat.max_eq_left (Nat.zero_le _)

/-- Documents inside each other are writable. -/
theorem writable_deepDocument
    (levels : Nat) :
    (DocumentValue.document (deepDocument levels)).Writable := by
  induction levels with
  | zero =>
      rfl
  | succ levels inductionHypothesis =>
      have key : isWellFormed (utf16 "a") = true := isWellFormed_utf16 _
      refine (DocumentValue.allNodes_document _ _).mpr ⟨?_, ?_⟩
      · simp only [DocumentValue.isWritable, deepDocument, List.all_cons,
          List.all_nil, key, Bool.and_self]
      · intro field member
        cases List.mem_singleton.mp member
        exact inductionHypothesis

end Payloads

namespace Session

section Results

variable
  {session : Session}
  {message : DecodedMessage}

/-- An answer that cannot be encoded is not made. -/
theorem encodeAnswer_tooDeep
    {requestId : Nat}
    {value : Document}
    (writable : (DocumentValue.document value).Writable)
    (fits :
      (DocumentValue.document (resultPayload value)).raw.length ≤
        maxPayloadSize)
    (isDeep : maxDocumentDepth ≤ (DocumentValue.document value).height) :
    encodeAnswer .result requestId (resultPayload value) true =
      .error (.notEncoded documentTooDeep) := by
  have refused :
      encodeDocument (resultPayload value) = .error documentTooDeep := by
    refine encodeDocumentValue_tooDeep (writable_resultPayload writable) ?_
      fits
    rw [height_resultPayload]
    omega
  have fails :
      encodeMessage
          { kind := .result
            requestId := requestId
            payload := resultPayload value } =
        .error documentTooDeep := by
    unfold encodeMessage encodeMessagePayload
    dsimp only
    rw [validateMessagePayload_result, Result.ok_bind, refused]
    rfl
  unfold encodeAnswer
  split
  · rename_i error isError
    rw [fails] at isError
    rw [Except.error.inj isError]
  · rename_i bytes isBytes
    rw [fails] at isBytes
    cases isBytes

/-- `write` makes its answer and reports nothing. -/
theorem events_write
    (session : Session)
    (answer : Answer) :
    (session.write answer).2.filterMap SessionEvent.made? = [answer] ∧
      (session.write answer).2.any SessionEvent.isFailed = false := by
  unfold write socketWrite
  split_ifs <;> exact ⟨rfl, rfl⟩

/-- A step answers a command with its result, or with the error of
`failCommand`, which it reports; a fault is what decides. -/
def AnswersUnless
    (fault : Prop)
    (requestId : Nat)
    (value : Document)
    (step : Step) : Prop :=
  ∃ later events answer, step = .ok (later, events) ∧
    events.filterMap SessionEvent.made? = [answer] ∧
    (events.any SessionEvent.isFailed = true ↔ fault) ∧
    (fault →
      encodeAnswer .error requestId internalFailure.toDocument true =
        .ok answer) ∧
    (¬ fault →
      encodeAnswer .result requestId (resultPayload value) true = .ok answer)

section Commands

variable
  {requestId : Nat}
  (isNumber : requestId ≤ maxRequestId)
  (listens : session.onErrorReturns = true)

include isNumber listens

/-- A result that would fit is a fault of the server exactly when it is too
deep. -/
theorem answersUnless_answerCommand
    {value : Document}
    (writable : (DocumentValue.document value).Writable)
    (fits :
      (DocumentValue.document (resultPayload value)).raw.length ≤
        maxPayloadSize) :
    AnswersUnless
      (maxDocumentDepth ≤ (DocumentValue.document value).height)
      requestId value (session.answerCommand requestId (.ok value)) := by
  unfold answerCommand
  by_cases isDeep : maxDocumentDepth ≤ (DocumentValue.document value).height
  · have refused :
        session.send .result requestId [(utf16 "value", .document value)]
          true = .error (.notEncoded documentTooDeep) := by
      have fails :=
        @encodeAnswer_tooDeep requestId value writable fits isDeep
      unfold resultPayload at fails
      unfold send
      rw [fails]
      rfl
    rcases (@encodeAnswer_isOk_iff _ _ isNumber _ true).mpr
        sendable_internalFailure with
      ⟨answer, encodes⟩
    rcases session.events_write answer with ⟨made, -⟩
    refine ⟨(session.write answer).1, .failed :: (session.write answer).2,
      answer, ?_, made, iff_of_true rfl isDeep, fun _ => encodes,
      fun notDeep => absurd isDeep notDeep⟩
    simp only [refused]
    rw [if_neg (by decide)]
    unfold failCommand sendError
    rw [if_pos listens, encodes]
    rfl
  · have sendable : Sendable .result (resultPayload value) := by
      refine ⟨validateMessagePayload_result value,
        ⟨writable_resultPayload writable, ?_⟩, fits⟩
      rw [height_resultPayload]
      omega
    rcases (@encodeAnswer_isOk_iff _ _ isNumber _ true).mpr sendable with
      ⟨answer, encodes⟩
    have sends :
        session.send .result requestId [(utf16 "value", .document value)]
          true = .ok (session.write answer) := by
      have whole := encodes
      unfold resultPayload at whole
      unfold send
      rw [whole]
      rfl
    rcases session.events_write answer with ⟨made, quiet⟩
    refine ⟨(session.write answer).1, (session.write answer).2, answer, ?_,
      made, iff_of_false ?_ isDeep, fun deep => absurd deep isDeep,
      fun _ => encodes⟩
    · simp only [sends]
    · rw [quiet]
      exact Bool.false_ne_true

end Commands

section Messages

variable
  (isNumber : message.requestId ≤ maxRequestId)
  (dispatches : session.dispatches message = true)
  (listens : session.onErrorReturns = true)

include isNumber dispatches listens

/-- The same for a whole message; what waits for a flush is no fault. -/
theorem answersUnless_handleMessage
    {value : Document}
    (writable : (DocumentValue.document value).Writable)
    (fits :
      (DocumentValue.document (resultPayload value)).raw.length ≤
        maxPayloadSize)
    {receivedAt : TimeValue}
    {hasPending : Bool}
    {fault : Prop}
    (isFault :
      maxDocumentDepth ≤ (DocumentValue.document value).height ↔ fault) :
    AnswersUnless fault message.requestId value
      (session.handleMessage message receivedAt (.ok value) hasPending) := by
  unfold Session.dispatches at dispatches
  rw [Bool.and_eq_true, Bool.and_eq_true, bne_iff_ne, bne_iff_ne,
    beq_iff_eq] at dispatches
  rcases dispatches with ⟨⟨notZero, notFirst⟩, isCommand⟩
  unfold handleMessage handleReady
  rw [if_neg notZero, if_neg notFirst, isCommand]
  dsimp only
  unfold handleCommand
  have quiet :
      (session.holdUntilDurable hasPending).1.onErrorReturns =
          session.onErrorReturns ∧
        (session.holdUntilDurable hasPending).2.filterMap
            SessionEvent.made? = [] ∧
          (session.holdUntilDurable hasPending).2.any
            SessionEvent.isFailed = false := by
    unfold holdUntilDurable
    split_ifs <;> exact ⟨rfl, rfl, rfl⟩
  revert quiet
  rcases session.holdUntilDurable hasPending with ⟨next, waits⟩
  rintro ⟨same, nothingMade, notFailed⟩
  rcases answersUnless_answerCommand isNumber (same.trans listens) writable
      fits with
    ⟨later, events, answer, answers, made, isFailed, error, result⟩
  dsimp only
  refine ⟨later, waits ++ events, answer, ?_, ?_, ?_, ?_, ?_⟩
  · rw [answers]
    rfl
  · rw [List.filterMap_append, nothingMade, made]
    rfl
  · rw [List.any_append, notFailed, Bool.false_or]
    exact isFailed.trans isFault
  · exact fun deep => error (isFault.mpr deep)
  · exact fun notDeep => result fun deep => notDeep (isFault.mp deep)

/--
A batch of stored documents that would fit in a message is answered by its
result, or by the error for a fault of the server: by the latter exactly when
one of them has more than 97 levels.
-/
theorem batch_fails_iff
    {batch : CursorBatch}
    (writable :
      ∀ document ∈ batch.documents,
        (DocumentValue.document document).Writable)
    (fits :
      (DocumentValue.document
        (resultPayload (toBatchDocument batch))).raw.length ≤ maxPayloadSize)
    {receivedAt : TimeValue}
    {hasPending : Bool} :
    AnswersUnless
      (∃ document ∈ batch.documents,
        97 < (DocumentValue.document document).height)
      message.requestId (toBatchDocument batch)
      (session.handleMessage message receivedAt (.ok (toBatchDocument batch))
        hasPending) := by
  refine answersUnless_handleMessage isNumber dispatches listens
    (writable_toBatchDocument writable) fits ?_
  rw [← not_lt, show maxDocumentDepth = 98 + 1 + 1 from rfl, Nat.lt_succ_iff,
    height_toBatchDocument_le]
  push Not
  refine exists_congr fun document => and_congr_right fun _ => ?_
  omega

/--
A stored document that would fit in a message is answered to `findOne`, or is
answered by the error for a fault of the server: by the latter exactly when it
has more than 98 levels.
-/
theorem findOne_fails_iff
    {document : Document}
    (writable : (DocumentValue.document document).Writable)
    (fits :
      (DocumentValue.document
        (resultPayload (Server.toFindOneResult (some document)))).raw.length ≤
        maxPayloadSize)
    {receivedAt : TimeValue}
    {hasPending : Bool} :
    AnswersUnless (98 < (DocumentValue.document document).height)
      message.requestId (Server.toFindOneResult (some document))
      (session.handleMessage message receivedAt
        (.ok (Server.toFindOneResult (some document))) hasPending) := by
  have levels : maxDocumentDepth = 100 := rfl
  refine answersUnless_handleMessage isNumber dispatches listens
    (writable_toFindOneResult writable) fits ?_
  rw [height_toFindOneResult]
  omega

end Messages

/-- A batch with a document of 98 levels. -/
theorem batch_fails_iff_deepDocument :
    ∃ later events answer,
      Session.handleMessage { state := .ready } listMessage ⟨0, by decide⟩
          (.ok (toBatchDocument ⟨none, [deepDocument 98]⟩)) false =
          .ok (later, events) ∧
        events.filterMap SessionEvent.made? = [answer] ∧
        encodeAnswer .error listMessage.requestId internalFailure.toDocument
            true =
          .ok answer := by
  have writable :
      ∀ document ∈ [deepDocument 98],
        (DocumentValue.document document).Writable := by
    intro document member
    rw [List.mem_singleton.mp member]
    exact writable_deepDocument 98
  have answers :=
    @batch_fails_iff { state := .ready } listMessage (by decide) (by decide)
      rfl ⟨none, [deepDocument 98]⟩ writable (by decide +kernel)
      ⟨0, by decide⟩ false
  rcases answers with ⟨later, events, answer, handles, made, -, error, -⟩
  refine ⟨later, events, answer, handles, made,
    error ⟨deepDocument 98, List.mem_singleton_self _, ?_⟩⟩
  rw [height_deepDocument]
  decide

/-- A document of 99 levels. -/
theorem findOne_fails_iff_deepDocument :
    ∃ later events answer,
      Session.handleMessage { state := .ready } listMessage ⟨0, by decide⟩
          (.ok (Server.toFindOneResult (some (deepDocument 99)))) false =
          .ok (later, events) ∧
        events.filterMap SessionEvent.made? = [answer] ∧
        encodeAnswer .error listMessage.requestId internalFailure.toDocument
            true =
          .ok answer := by
  have answers :=
    @findOne_fails_iff { state := .ready } listMessage (by decide) (by decide)
      rfl (deepDocument 99) (writable_deepDocument 99) (by decide +kernel)
      ⟨0, by decide⟩ false
  rcases answers with ⟨later, events, answer, handles, made, -, error, -⟩
  refine ⟨later, events, answer, handles, made, error ?_⟩
  rw [height_deepDocument]
  decide

end Results

end Session

end SinterDb
