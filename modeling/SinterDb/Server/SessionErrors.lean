import SinterDb.Lib.TextSize
import SinterDb.Protocol.Restored
import SinterDb.Server.BatchSize
import SinterDb.Server.SessionAnswers

namespace SinterDb

open Unicode

/-!
# What a session throws

Every answer that a session makes on its own can be encoded.  The error of a
command carries texts of the client, and the session throws when the message
would be too long for a frame.
-/

/-- A payload can be encoded as a message of a kind. -/
structure Sendable (kind : MessageKind) (payload : Document) : Prop where
  valid : validateMessagePayload kind payload = .ok ()
  encodable : (DocumentValue.document payload).Encodable
  fits : (DocumentValue.document payload).raw.length ≤ maxPayloadSize

/-- An answer is made exactly when its payload can be encoded. -/
theorem encodeAnswer_isOk_iff
    {kind : MessageKind}
    {requestId : Nat}
    (isNumber : requestId ≤ maxRequestId)
    {payload : Document}
    {toCommand : Bool} :
    (∃ answer, encodeAnswer kind requestId payload toCommand = .ok answer) ↔
      Sendable kind payload := by
  have isMade :
      (∃ answer,
          encodeAnswer kind requestId payload toCommand = .ok answer) ↔
        ∃ bytes,
          encodeMessage
              { kind := kind, requestId := requestId, payload := payload } =
            .ok bytes := by
    unfold encodeAnswer
    constructor
    · rintro ⟨answer, makes⟩
      split at makes
      · cases makes
      · exact ⟨_, ‹_›⟩
    · rintro ⟨bytes, encodes⟩
      split
      · rename_i fails
        rw [fails] at encodes
        cases encodes
      · exact ⟨_, rfl⟩
  rw [isMade]
  constructor
  · rintro ⟨bytes, encodes⟩
    rcases Result.bind_eq_ok.mp encodes with ⟨encoded, writes, -⟩
    rcases Result.bind_eq_ok.mp writes with ⟨⟨⟩, valid, writes⟩
    rcases encodeDocumentValue_ok.mp writes with ⟨encodable, fits, -⟩
    exact ⟨valid, encodable, fits⟩
  · rintro ⟨valid, encodable, fits⟩
    have writes :
        encodeDocument payload =
          .ok (DocumentValue.document payload).raw :=
      encodeDocumentValue_ok.mpr ⟨encodable, fits, rfl⟩
    refine ⟨rawFrame kind 0 requestId (DocumentValue.document payload).raw,
      ?_⟩
    unfold encodeMessage encodeMessagePayload
    dsimp only
    rw [valid, Result.ok_bind, writes, Result.ok_bind]
    unfold encodeFrame validateRequestId validatePayload
    rw [if_neg (by omega), if_neg (by omega)]
    rfl

section Fixed

/-- A payload can be sent when its estimated size fits. -/
theorem sendable_of_estimate
    {kind : MessageKind}
    {payload : Document}
    (valid : validateMessagePayload kind payload = .ok ())
    (writable :
      (DocumentValue.document payload).allNodes DocumentValue.isWritable =
        true)
    (shallow : (DocumentValue.document payload).height ≤ maxDocumentDepth)
    (fits :
      estimateEncodedSize (.document payload) ≤ maxPayloadSize) :
    Sendable kind payload :=
  ⟨valid, ⟨writable, shallow⟩,
    (length_raw_le_estimateEncodedSize _).trans fits⟩

/-- The handshake of the server can be sent. -/
theorem sendable_serverHandshake :
    Sendable .handshake serverHandshake :=
  sendable_of_estimate (by decide +kernel) (by decide +kernel)
    (by decide +kernel) (by decide +kernel)

/-- The answer to a ping can be sent. -/
theorem sendable_pong
    (sentAt receivedAt : TimeValue) :
    Sendable .result
      [(utf16 "value",
        .document (pong (.date (some sentAt)) receivedAt))] := by
  have size :
      estimateEncodedSize
          (.document
            [(utf16 "value",
              .document (pong (.date (some sentAt)) receivedAt))]) = 68 :=
    rfl
  have height :
      (DocumentValue.document
        [(utf16 "value",
          .document (pong (.date (some sentAt)) receivedAt))]).height = 2 :=
    rfl
  refine sendable_of_estimate rfl rfl ?_ ?_
  · rw [height]
    decide
  · rw [size]
    decide

/-- The size of an envelope that has no details. -/
theorem estimate_envelope
    {envelope : ErrorEnvelope}
    (noDetails : envelope.details = none) :
    estimateEncodedSize (.document envelope.toDocument) =
      65 + byteLength (utf16 envelope.name) + byteLength envelope.message := by
  have keys :
      byteLength (utf16 "code") = 4 ∧ byteLength (utf16 "name") = 4 ∧
        byteLength (utf16 "message") = 7 ∧
        byteLength (utf16 "retryable") = 9 := by
    decide
  unfold ErrorEnvelope.toDocument
  rw [noDetails]
  simp only [Option.map_none, Option.toList_none, List.append_nil, numberField,
    textField, estimateEncodedSize, estimateFields, keys, tagBytes,
    lengthBytes, widestNumberBytes]
  omega

/-- An integer within the bounds is an unsigned integer. -/
theorem isUnsignedInteger_of_eq
    {number : JsNumber}
    {value maximum : Nat}
    (integral : number.toInt? = some (value : Int))
    (within : value ≤ maximum) :
    isUnsignedInteger maximum (some (.number number)) = true := by
  have least : (0 : Int) ≤ value := Int.natCast_nonneg value
  have most : (value : Int) ≤ maximum := Int.ofNat_le.mpr within
  simp only [isUnsignedInteger, integral, decide_eq_true_eq]
  exact ⟨least, most⟩

/-- The number of an error is an unsigned integer. -/
theorem isUnsignedInteger_ofInt
    {code : Nat}
    (isCode : code ≤ 9999) :
    isUnsignedInteger 0xffffffff (some (.number (.ofInt (code : Int)))) =
      true := by
  have safe : (code : Int).natAbs < 2 ^ 53 := by
    omega
  exact isUnsignedInteger_of_eq (JsNumber.toInt_ofInt safe).1 (by omega)

/-- An envelope has the fields of an error. -/
theorem validateError_envelope
    {envelope : ErrorEnvelope}
    (isCode : envelope.code ≤ 9999)
    (isNamed : 0 < (utf16 envelope.name).length) :
    validateMessagePayload .error envelope.toDocument = .ok () ↔
      0 < envelope.message.length := by
  rcases envelope with ⟨code, name, message, details⟩
  have named : isNonEmptyString (some (.string (utf16 name))) = true :=
    decide_eq_true isNamed
  have checks :
      validateMessagePayload .error
          (ErrorEnvelope.toDocument ⟨code, name, message, details⟩) =
        (do
          checkPayload .error
            (isUnsignedInteger 0xffffffff (some (.number (.ofInt code))))
            "Error code must be an unsigned 32-bit integer."
          checkPayload .error
            (isNonEmptyString (some (.string (utf16 name))))
            "Error name must be a non-empty string."
          checkPayload .error (isNonEmptyString (some (.string message)))
            "Error message must be a non-empty string."
          checkPayload .error true "Error retryable flag must be a boolean."
          checkPayload .error true
            "Error details must be a document when provided.") := by
    cases details <;> rfl
  rw [checks, isUnsignedInteger_ofInt isCode, named]
  by_cases notEmpty : 0 < message.length
  · have spoken : isNonEmptyString (some (.string message)) = true :=
      decide_eq_true notEmpty
    rw [spoken]
    exact iff_of_true rfl notEmpty
  · have silent : isNonEmptyString (some (.string message)) = false :=
      decide_eq_false notEmpty
    rw [silent]
    exact iff_of_false (fun valid => nomatch valid) notEmpty

/-- An envelope without details can be sent when its text is not long. -/
theorem sendable_envelope
    {envelope : ErrorEnvelope}
    (isCode : envelope.code ≤ 9999)
    (isNamed : 0 < (utf16 envelope.name).length)
    (notEmpty : 0 < envelope.message.length)
    (noDetails : envelope.details = none)
    (wellFormed : isWellFormed envelope.message = true)
    (short :
      byteLength (utf16 envelope.name) + byteLength envelope.message ≤
        1000000) :
    Sendable .error envelope.toDocument := by
  refine sendable_of_estimate ?_ ?_ ?_ ?_
  · exact (validateError_envelope isCode isNamed).mpr notEmpty
  · unfold ErrorEnvelope.toDocument
    rw [noDetails]
    have named := isWellFormed_utf16 envelope.name
    simp [DocumentValue.allNodes, DocumentValue.allFields, numberField,
      textField, DocumentValue.isWritable, wellFormed, named,
      isWellFormed_utf16]
  · unfold ErrorEnvelope.toDocument
    rw [noDetails]
    exact Nat.le_trans (Nat.le_of_eq rfl) (by decide : 1 ≤ 100)
  · rw [estimate_envelope noDetails]
    exact Nat.le_trans (by omega : _ ≤ 1000065) (by decide)

/-- A text of some characters has some code units. -/
theorem length_utf16_pos
    {literal : String}
    (some : 0 < literal.toList.length) :
    0 < (utf16 literal).length := by
  cases characters : literal.toList with
  | nil =>
      rw [characters] at some
      cases some
  | cons char rest =>
      unfold utf16 Unicode.toUnits unitsOf
      rw [characters, List.map_cons, List.flatMap_cons]
      split_ifs <;> exact Nat.succ_pos _

/-- An error that a session makes itself can be sent when its text is not
long. -/
theorem sendable_literal
    {code : Nat}
    {name message : String}
    (isCode : code ≤ 9999)
    (isNamed : 0 < name.toList.length)
    (notEmpty : 0 < message.toList.length)
    (short : name.toList.length + message.toList.length ≤ 1000) :
    Sendable .error
      (ErrorEnvelope.toDocument ⟨code, name, utf16 message, none⟩) := by
  have nameSize := length_encode_utf16_le name
  have messageSize := length_encode_utf16_le message
  refine sendable_envelope isCode (length_utf16_pos isNamed)
    (length_utf16_pos notEmpty) rfl (isWellFormed_utf16 message) ?_
  have bound :
      byteLength (utf16 name) + byteLength (utf16 message) ≤ 4000 := by
    unfold byteLength
    omega
  exact Nat.le_trans bound (by decide)

/-- The failure of a command can be sent. -/
theorem sendable_internalFailure :
    Sendable .error internalFailure.toDocument :=
  sendable_literal (by decide) (by decide) (by decide) (by decide)

/-- That a result is too large can be sent. -/
theorem sendable_resultTooLarge :
    Sendable .error resultTooLarge.toDocument :=
  sendable_literal (by decide) (by decide) (by decide) (by decide)

/-- An invalid request is answered with its text. -/
theorem sendable_invalidRequest
    {message : String}
    (notEmpty : 0 < message.toList.length)
    (short : message.toList.length ≤ 900) :
    Sendable .error (invalidRequest message).toDocument := by
  have name : "InvalidRequest".toList.length = 14 := rfl
  exact sendable_literal (by decide) (by decide) notEmpty (by omega)

/-- The decimal digits of a version are few. -/
theorem length_toString_version
    {version : Int}
    (least : 0 ≤ version)
    (most : version ≤ 0xffff) :
    (toString version).toList.length ≤ 5 := by
  lift version to Nat using least
  have few : version < 10 ^ 5 := by
    omega
  have digits : (Nat.repr version).toList.length ≤ 5 := by
    rw [Nat.toList_repr]
    exact (Nat.length_toDigits_le_iff (by decide) (by decide)).mpr few
  exact digits

/-- A handshake with another version is answered with that version. -/
theorem sendable_versionMismatch
    {version : Int}
    (least : 0 ≤ version)
    (most : version ≤ 0xffff) :
    Sendable .error (versionMismatch version).toDocument := by
  have digits := length_toString_version least most
  have text :
      s!"Protocol version {version} is not supported.".toList =
        "Protocol version ".toList ++ (toString version).toList ++
          " is not supported.".toList := by
    rw [String.toList_append, String.toList_append]
    rfl
  have size := congrArg List.length text
  simp only [List.length_append] at size
  have before : "Protocol version ".toList.length = 17 := rfl
  have behind : " is not supported.".toList.length = 18 := rfl
  have name : "UnsupportedProtocolVersion".toList.length = 26 := rfl
  rw [before, behind] at size
  refine sendable_literal (by decide) (by decide) ?_ ?_
  · rw [size]
    omega
  · rw [size, name]
    omega

end Fixed

section Envelopes

/-- The bytes of the details of an envelope, with their key. -/
def ErrorEnvelope.detailsSize (envelope : ErrorEnvelope) : Nat :=
  match envelope.details with
  | none => 0
  | some details => 11 + (DocumentValue.document details).raw.length

/-- The size of a field. -/
theorem length_rawField
    (key : JsString)
    (value : DocumentValue) :
    (rawField (key, value)).length =
      4 + byteLength key + value.raw.length := by
  unfold rawField lengthPrefixed byteLength
  rw [List.length_append, List.length_append, BigEndian.length_encode]

/-- The size of a text. -/
theorem length_raw_string
    (text : JsString) :
    (DocumentValue.string text).raw.length = 5 + byteLength text := by
  unfold DocumentValue.raw lengthPrefixed byteLength
  rw [List.length_cons, List.length_append, BigEndian.length_encode]
  omega

/-- The size of an envelope. -/
theorem length_raw_envelope
    {envelope : ErrorEnvelope}
    (isCode : envelope.code ≤ 9999) :
    (DocumentValue.document envelope.toDocument).raw.length =
      61 + byteLength (utf16 envelope.name) + byteLength envelope.message +
        envelope.detailsSize := by
  have keys :
      byteLength (utf16 "code") = 4 ∧ byteLength (utf16 "name") = 4 ∧
        byteLength (utf16 "message") = 7 ∧
        byteLength (utf16 "retryable") = 9 ∧
        byteLength (utf16 "details") = 7 := by
    decide
  have code :
      (DocumentValue.number (.ofInt (envelope.code : Int))).raw.length =
        5 := by
    rw [DocumentValue.raw]
    exact length_rawNumber_int32 (by omega) (by omega)
  have retryable : (DocumentValue.boolean false).raw.length = 1 := by
    rfl
  unfold ErrorEnvelope.toDocument ErrorEnvelope.detailsSize numberField
    textField
  rw [DocumentValue.length_raw_document]
  cases envelope.details with
  | none =>
      simp only [Option.map_none, Option.toList_none, List.append_nil,
        List.map_cons, List.map_nil, List.sum_cons, List.sum_nil,
        length_rawField, length_raw_string, code, retryable, keys]
      omega
  | some details =>
      simp only [Option.map_some, Option.toList_some, List.cons_append,
        List.nil_append, List.map_cons, List.map_nil, List.sum_cons,
        List.sum_nil, length_rawField, length_raw_string, code, retryable,
        keys]
      omega

/-- An envelope is encodable when its texts and details are. -/
theorem encodable_envelope_iff
    {envelope : ErrorEnvelope} :
    (DocumentValue.document envelope.toDocument).Encodable ↔
      isWellFormed envelope.message = true ∧
        ∀ details ∈ envelope.details,
          (DocumentValue.document details).Writable ∧
            (DocumentValue.document details).height < maxDocumentDepth := by
  have known (literal : String) : isWellFormed (utf16 literal) = true :=
    isWellFormed_utf16 literal
  unfold DocumentValue.Encodable DocumentValue.Writable
    ErrorEnvelope.toDocument numberField textField
  rw [DocumentValue.allNodes_document, DocumentValue.height_document_le]
  cases envelope.details with
  | none =>
      simp [DocumentValue.isWritable, DocumentValue.allNodes, known,
        DocumentValue.height, maxDocumentDepth]
  | some details =>
      have scalar : 0 + 1 ≤ maxDocumentDepth := by decide
      simp only [Option.map_some, Option.toList_some, List.cons_append,
        List.nil_append, DocumentValue.isWritable, DocumentValue.allNodes,
        List.all_cons, List.all_nil, List.forall_mem_cons, known,
        List.not_mem_nil, false_implies, implies_true, DocumentValue.height,
        scalar, Option.mem_def, Option.some.injEq, forall_eq', Bool.and_self,
        true_and, and_true, Nat.lt_iff_add_one_le, and_assoc]

/-- Everything that is asked of the error of a command so that its message can
be sent. -/
structure CommandExecutionError.Expressible
    (error : CommandExecutionError) : Prop where
  notEmpty : 0 < error.message.length
  wellFormed : isWellFormed error.message = true
  details :
    ∀ details ∈ error.details,
      (DocumentValue.document details).Writable ∧
        (DocumentValue.document details).height < maxDocumentDepth
  fits :
    61 + byteLength (utf16 error.code.text) + byteLength error.message +
        error.envelope.detailsSize ≤
      maxPayloadSize

/-- The number of a code is small. -/
theorem WireErrorCode.number_le
    (code : WireErrorCode) :
    code.number ≤ 9999 := by
  cases code <;> decide

/-- A code has a name. -/
theorem WireErrorCode.text_pos
    (code : WireErrorCode) :
    0 < code.text.toList.length := by
  cases code <;> decide

/-- The error of a command can be sent when it is expressible. -/
theorem sendable_commandError_iff
    {error : CommandExecutionError} :
    Sendable .error error.envelope.toDocument ↔ error.Expressible := by
  have isCode : error.envelope.code ≤ 9999 :=
    error.code.number_le
  have isNamed : 0 < (utf16 error.envelope.name).length :=
    length_utf16_pos error.code.text_pos
  constructor
  · rintro ⟨valid, encodable, fits⟩
    rcases encodable_envelope_iff.mp encodable with ⟨wellFormed, details⟩
    rw [length_raw_envelope isCode] at fits
    exact ⟨(validateError_envelope isCode isNamed).mp valid, wellFormed,
      details, fits⟩
  · rintro ⟨notEmpty, wellFormed, details, fits⟩
    have size := @length_raw_envelope error.envelope isCode
    exact ⟨(validateError_envelope isCode isNamed).mpr notEmpty,
      encodable_envelope_iff.mpr ⟨wellFormed, details⟩, size.trans_le fits⟩

end Envelopes


/-- A check of a payload accepts. -/
theorem checkPayload_ok
    {kind : MessageKind}
    {accepted : Bool}
    {reason : String}
    (valid : checkPayload kind accepted reason = .ok ()) :
    accepted = true := by
  cases accepted with
  | false => cases valid
  | true => rfl

namespace Session

/-- A step comes to its end. -/
def Returns (step : Step) : Prop :=
  ∃ later events, step = .ok (later, events)

/-- A step that goes on with another one comes to its end when that does. -/
theorem returns_bind_iff
    {step : Step}
    {next : Session × List SessionEvent → Session × List SessionEvent} :
    Returns (do let result ← step; return next result) ↔ Returns step := by
  cases step with
  | error error =>
      exact iff_of_false (fun returns => by rcases returns with ⟨_, _, same⟩; cases same)
        (fun returns => by rcases returns with ⟨_, _, same⟩; cases same)
  | ok result => exact iff_of_true ⟨_, _, rfl⟩ ⟨_, _, rfl⟩

section Returning

variable
  {session : Session}
  {requestId : Nat}
  (isNumber : requestId ≤ maxRequestId)

include isNumber

/-- `send` returns when its payload can be encoded. -/
theorem returns_send_iff
    {kind : MessageKind}
    {payload : Document}
    {toCommand : Bool} :
    Returns (session.send kind requestId payload toCommand) ↔
      Sendable kind payload := by
  rw [← @encodeAnswer_isOk_iff kind requestId isNumber payload toCommand]
  constructor
  · rintro ⟨later, events, sends⟩
    rcases Result.bind_eq_ok.mp sends with ⟨answer, encodes, -⟩
    exact ⟨answer, encodes⟩
  · rintro ⟨answer, encodes⟩
    unfold send
    rw [encodes]
    exact ⟨_, _, rfl⟩

/-- `sendError` returns when its envelope can be encoded. -/
theorem returns_sendError_iff
    {envelope : ErrorEnvelope}
    {toCommand : Bool} :
    Returns (session.sendError requestId envelope toCommand) ↔
      Sendable .error envelope.toDocument :=
  returns_send_iff isNumber

/-- `sendError` returns when it closes the connection. -/
theorem returns_sendErrorAndClose
    {envelope : ErrorEnvelope}
    (sendable : Sendable .error envelope.toDocument) :
    Returns (session.sendErrorAndClose requestId envelope) := by
  rcases (@encodeAnswer_isOk_iff _ _ isNumber _ false).mpr sendable with
    ⟨answer, encodes⟩
  unfold sendErrorAndClose
  rw [encodes]
  rw [Result.ok_bind]
  dsimp only
  split_ifs
  · exact ⟨_, _, rfl⟩
  · exact ⟨_, _, rfl⟩

/-- `failCommand` returns when `onError` does. -/
theorem returns_failCommand
    (listens : session.onErrorReturns = true) :
    Returns (session.failCommand requestId) := by
  unfold failCommand
  rw [if_pos listens, returns_bind_iff, returns_sendError_iff isNumber]
  exact sendable_internalFailure

/-- A command is answered unless its error cannot be encoded.  Its own errors
are not given to `onError`. -/
theorem returns_answerCommand_iff
    {reply : Reply}
    (listens :
      session.onErrorReturns = true ∨
        ∃ error, reply = .error (.command error)) :
    Returns (session.answerCommand requestId reply) ↔
      ∀ error, reply = .error (.command error) →
        Sendable .error error.envelope.toDocument := by
  unfold answerCommand
  rcases reply with (error | error) | value
  · rw [returns_sendError_iff isNumber]
    constructor
    · intro sendable other same
      cases same
      exact sendable
    · intro each
      exact each error rfl
  · have listens :=
      listens.resolve_right fun isCommand => by
        rcases isCommand with ⟨_, same⟩
        cases same
    exact iff_of_true (returns_failCommand isNumber listens)
      (fun other same => by cases same)
  · have listens :=
      listens.resolve_right fun isCommand => by
        rcases isCommand with ⟨_, same⟩
        cases same
    refine iff_of_true ?_ (fun other same => by cases same)
    dsimp only
    cases sends :
        session.send .result requestId [(utf16 "value", .document value)]
          true with
    | ok sent => exact ⟨_, _, rfl⟩
    | error error =>
        dsimp only
        split_ifs
        · exact (returns_sendError_iff isNumber).mpr sendable_resultTooLarge
        · exact returns_failCommand isNumber listens

/-- Holding the answer does not matter for it. -/
theorem returns_handleCommand_iff
    {reply : Reply}
    (listens :
      session.onErrorReturns = true ∨
        ∃ error, reply = .error (.command error))
    {hasPending : Bool} :
    Returns (session.handleCommand requestId reply hasPending) ↔
      ∀ error, reply = .error (.command error) →
        Sendable .error error.envelope.toDocument := by
  have same :
      (session.holdUntilDurable hasPending).1.onErrorReturns =
        session.onErrorReturns := by
    unfold holdUntilDurable
    split_ifs <;> rfl
  unfold handleCommand
  rw [returns_bind_iff]
  refine returns_answerCommand_iff isNumber ?_
  rw [same]
  exact listens

end Returning

/-- The version of a handshake that is a handshake has sixteen bits. -/
theorem handshakeVersion_bounds
    {payload : Document}
    (valid : validateMessagePayload .handshake payload = .ok ()) :
    0 ≤ handshakeVersion payload ∧ handshakeVersion payload ≤ 0xffff := by
  rcases Result.bind_eq_ok.mp valid with ⟨⟨⟩, -, valid⟩
  rcases Result.bind_eq_ok.mp valid with ⟨⟨⟩, version, -⟩
  have bounded := checkPayload_ok version
  rw [Bool.and_eq_true] at bounded
  have isVersion := bounded.1
  unfold handshakeVersion
  revert isVersion
  generalize payload.get? (utf16 "protocolVersion") = found
  intro isVersion
  cases found with
  | none =>
      cases isVersion
  | some value =>
      cases value with
      | number number =>
          unfold isUnsignedInteger at isVersion
          revert isVersion
          dsimp only
          cases number.toInt? with
          | none =>
              intro isVersion
              cases isVersion
          | some whole =>
              intro isVersion
              exact of_decide_eq_true isVersion
      | _ => cases isVersion

/-- The time of a ping that is a ping. -/
theorem sentAt_eq
    {payload : Document}
    (valid : validateMessagePayload .ping payload = .ok ()) :
    ∃ sentAt, payload.get? (utf16 "sentAt") = some (.date (some sentAt)) := by
  have isTime := checkPayload_ok valid
  unfold isValidDate at isTime
  split at isTime
  · rename_i time same
    exact ⟨time, same⟩
  · cases isTime

section Received

variable
  {session : Session}
  {message : DecodedMessage}
  (isNumber : message.requestId ≤ maxRequestId)
  (valid : validateMessagePayload message.kind message.payload = .ok ())

include isNumber valid

/-- The first message of a connection is answered. -/
theorem returns_handleHandshake :
    Returns (session.handleHandshake message) := by
  unfold handleHandshake
  split_ifs with isOther isServer isVersion
  · exact returns_sendErrorAndClose isNumber
      (sendable_invalidRequest (by decide) (by decide))
  · exact returns_sendErrorAndClose isNumber
      (sendable_invalidRequest (by decide) (by decide))
  · rw [not_not] at isOther
    rw [isOther] at valid
    rcases handshakeVersion_bounds valid with ⟨least, most⟩
    exact returns_sendErrorAndClose isNumber
      (sendable_versionMismatch least most)
  · exact returns_bind_iff.mpr
      ((returns_send_iff isNumber).mpr sendable_serverHandshake)

/-- A session that is ready answers a message, unless it is a command whose
error cannot be encoded. -/
theorem returns_handleReady_iff
    {receivedAt : TimeValue}
    {reply : Reply}
    (listens :
      session.onErrorReturns = true ∨
        ∃ error, reply = .error (.command error))
    {hasPending : Bool} :
    Returns (session.handleReady message receivedAt reply hasPending) ↔
      ((message.kind == .command) = true →
        ∀ error, reply = .error (.command error) →
          Sendable .error error.envelope.toDocument) := by
  have othersAreRefused :
      Returns
        (session.sendError message.requestId
          (invalidRequest
            "Clients may only send handshake, ping, and command messages.")
          false) :=
    (returns_sendError_iff isNumber).mpr
      (sendable_invalidRequest (by decide) (by decide))
  unfold handleReady
  cases kind : message.kind with
  | ping =>
      rw [kind] at valid
      rcases sentAt_eq valid with ⟨sentAt, isTime⟩
      refine iff_of_true ?_ (fun isCommand => nomatch isCommand)
      dsimp only
      rw [isTime]
      exact (returns_send_iff isNumber).mpr (sendable_pong sentAt receivedAt)
  | command =>
      dsimp only
      rw [returns_handleCommand_iff isNumber listens]
      exact ⟨fun each _ => each, fun each => each rfl⟩
  | handshake =>
      refine iff_of_true ?_ (fun isCommand => nomatch isCommand)
      exact (returns_sendError_iff isNumber).mpr
        (sendable_invalidRequest (by decide) (by decide))
  | result =>
      exact iff_of_true othersAreRefused (fun isCommand => nomatch isCommand)
  | streamItem =>
      exact iff_of_true othersAreRefused (fun isCommand => nomatch isCommand)
  | streamEnd =>
      exact iff_of_true othersAreRefused (fun isCommand => nomatch isCommand)
  | error =>
      exact iff_of_true othersAreRefused (fun isCommand => nomatch isCommand)

/-- A session answers a message, unless it is a command whose error cannot be
encoded. -/
theorem returns_handleMessage_iff
    {receivedAt : TimeValue}
    {reply : Reply}
    (listens :
      session.onErrorReturns = true ∨
        ∃ error, reply = .error (.command error))
    {hasPending : Bool} :
    Returns (session.handleMessage message receivedAt reply hasPending) ↔
      (session.dispatches message = true →
        ∀ error, reply = .error (.command error) →
          Sendable .error error.envelope.toDocument) := by
  unfold handleMessage dispatches
  by_cases isZero : message.requestId = 0
  · rw [if_pos isZero]
    refine iff_of_true ?_ ?_
    · exact returns_sendErrorAndClose (Nat.zero_le _)
        (sendable_invalidRequest (by decide) (by decide))
    · intro dispatches
      rw [isZero] at dispatches
      cases dispatches
  · rw [if_neg isZero]
    by_cases isFirst : session.state = .awaitingHandshake
    · rw [if_pos isFirst]
      refine iff_of_true (returns_handleHandshake isNumber valid) ?_
      intro dispatches
      rw [isFirst] at dispatches
      simp at dispatches
    · rw [if_neg isFirst]
      have isReady :
          (message.requestId != 0 && session.state != .awaitingHandshake) =
            true := by
        simp [isZero, isFirst]
      rw [isReady, Bool.true_and]
      exact returns_handleReady_iff isNumber valid listens

/-- A session that comes to the end of a message has answered it with one frame
that has its number. -/
theorem answers_iff_expressible
    {receivedAt : TimeValue}
    {reply : Reply}
    (listens :
      session.onErrorReturns = true ∨
        ∃ error, reply = .error (.command error))
    {hasPending : Bool} :
    (∃ later events answer,
        session.handleMessage message receivedAt reply hasPending =
            .ok (later, events) ∧
          events.filterMap SessionEvent.made? = [answer] ∧
            answer.requestId = message.requestId) ↔
      (session.dispatches message = true →
        ∀ error, reply = .error (.command error) → error.Expressible) := by
  have returns :=
    @returns_handleMessage_iff session message isNumber valid receivedAt reply
      listens hasPending
  simp only [sendable_commandError_iff] at returns
  rw [← returns]
  constructor
  · rintro ⟨later, events, answer, handles, -, -⟩
    exact ⟨later, events, handles⟩
  · rintro ⟨later, events, handles⟩
    rcases answersIn_handleMessage message receivedAt reply later events
      handles with ⟨answer, answered⟩
    exact ⟨later, events, answer, handles, answered.made, answered.requestId⟩

/-- A session whose `onError` returns answers a message with one frame that has
its number, unless it is a command and its error cannot be expressed as a
message. -/
theorem handleMessage_answers_iff
    (listens : session.onErrorReturns = true)
    {receivedAt : TimeValue}
    {reply : Reply}
    {hasPending : Bool} :
    (∃ later events answer,
        session.handleMessage message receivedAt reply hasPending =
            .ok (later, events) ∧
          events.filterMap SessionEvent.made? = [answer] ∧
            answer.requestId = message.requestId) ↔
      (session.dispatches message = true →
        ∀ error, reply = .error (.command error) → error.Expressible) :=
  answers_iff_expressible isNumber valid (.inl listens)

end Received

/-- A message for a command that needs a database. -/
def listMessage : DecodedMessage :=
  ⟨1, .command, 0, 2,
    [textField "command" (utf16 "listCollections"),
      (utf16 "parameters", .document [])]⟩

/-- The error of a command is answered by its number. -/
theorem handleMessage_answers_iff_listCollections :
    ∃ later events answer,
      Session.handleMessage { state := .ready } listMessage ⟨0, by decide⟩
          (.error (.command
            ⟨.invalidRequest, utf16 "Database is missing.", none⟩))
          true =
          .ok (later, events) ∧
        events.filterMap SessionEvent.made? = [answer] ∧
          answer.requestId = listMessage.requestId := by
  refine (handleMessage_answers_iff (by decide) (by decide +kernel) rfl).mpr ?_
  intro _ error same
  cases same
  exact ⟨by decide, by decide, fun details member => (nomatch member),
    by decide +kernel⟩

end Session

/-- The payload of a command, as a `CommandEnvelope`. -/
def commandEnvelope (payload : Document) : CommandEnvelope where
  command :=
    match payload.get? (utf16 "command") with
    | some (.string command) => command
    | _ => []
  database :=
    match payload.get? (utf16 "database") with
    | some (.string database) => some database
    | _ => none
  parameters :=
    match payload.get? (utf16 "parameters") with
    | some (.document parameters) => parameters
    | _ => []

section UnknownCommand

/-- The error for a command that is unknown. -/
def unknownCommand (name : JsString) : CommandExecutionError :=
  ⟨.unknownCommand,
    utf16 "Unknown command " ++ Json.quote name ++ utf16 ".",
    some [textField "command" name]⟩

/-- The error for a command that is unknown carries its name twice. -/
theorem expressible_unknownCommand_iff
    {name : JsString}
    (wellFormed : isWellFormed name = true) :
    (unknownCommand name).Expressible ↔
      124 + byteLength (Json.quote name) + byteLength name ≤
        maxPayloadSize := by
  have quoted := isWellFormed_quote name
  have opened :
      isWellFormed (utf16 "Unknown command " ++ Json.quote name) = true :=
    isWellFormed_append_of (isWellFormed_utf16 _) quoted
  have message :
      byteLength (unknownCommand name).message =
        17 + byteLength (Json.quote name) := by
    have before : (TextEncoder.encode (utf16 "Unknown command ")).length =
        16 := by
      decide
    have behind : (TextEncoder.encode (utf16 ".")).length = 1 := by
      decide
    unfold unknownCommand byteLength
    rw [length_encode_append opened,
      length_encode_append (isWellFormed_utf16 _), before, behind]
    omega
  have code : byteLength (utf16 WireErrorCode.unknownCommand.text) = 14 := by
    decide
  have details :
      (unknownCommand name).envelope.detailsSize =
        32 + byteLength name := by
    have key : byteLength (utf16 "command") = 7 := by
      decide
    unfold ErrorEnvelope.detailsSize CommandExecutionError.envelope
      unknownCommand textField
    dsimp only
    rw [DocumentValue.length_raw_document, List.map_singleton,
      List.sum_singleton, length_rawField, length_raw_string, key]
    omega
  constructor
  · intro expressible
    have fits := expressible.fits
    have isCode : (unknownCommand name).code = .unknownCommand := rfl
    rw [message, isCode, code, details] at fits
    omega
  · intro fits
    refine ⟨?_, ?_, ?_, ?_⟩
    · unfold unknownCommand
      rw [List.length_append, List.length_append]
      have dot : 0 < (utf16 ".").length := by
        decide
      omega
    · exact isWellFormed_append_of opened (isWellFormed_utf16 _)
    · intro details isDetails
      cases isDetails
      have known := isWellFormed_utf16 "command"
      constructor
      · simp [DocumentValue.Writable, DocumentValue.allNodes,
          DocumentValue.allFields, DocumentValue.isWritable, textField, known,
          wellFormed]
      · exact Nat.lt_of_le_of_lt (Nat.le_of_eq rfl)
          (by decide : 1 < maxDocumentDepth)
    · have isCode : (unknownCommand name).code = .unknownCommand := rfl
      rw [message, isCode, code, details]
      omega

/--
A session answers a command that nobody knows, unless its name is so long that
the error with the name in it is no message: then the session throws.
-/
theorem unknownCommand_answers_iff
    {session : Session}
    {message : DecodedMessage}
    (isNumber : message.requestId ≤ maxRequestId)
    (valid : validateMessagePayload message.kind message.payload = .ok ())
    (dispatches : session.dispatches message = true)
    (unknown :
      ServerCommand.ofName? (commandEnvelope message.payload).command = none)
    (wellFormed :
      isWellFormed (commandEnvelope message.payload).command = true)
    {server : Server}
    {moment : Moment}
    {receivedAt : TimeValue}
    {hasPending : Bool} :
    (∃ later events answer,
        session.handleMessage message receivedAt
            (server.dispatch (commandEnvelope message.payload) moment).1
            hasPending =
            .ok (later, events) ∧
          events.filterMap SessionEvent.made? = [answer] ∧
            answer.requestId = message.requestId) ↔
      124 + byteLength (Json.quote (commandEnvelope message.payload).command) +
          byteLength (commandEnvelope message.payload).command ≤
        maxPayloadSize := by
  have refused :
      (server.dispatch (commandEnvelope message.payload) moment).1 =
        .error (.command
          (unknownCommand (commandEnvelope message.payload).command)) := by
    unfold Server.dispatch
    rw [unknown]
    rfl
  rw [← expressible_unknownCommand_iff wellFormed,
    refused, Session.answers_iff_expressible isNumber valid (.inr ⟨_, rfl⟩)]
  constructor
  · intro each
    exact each dispatches _ rfl
  · intro expressible _ error same
    cases same
    exact expressible

/-- A message for a command whose name is a row of the letter x. -/
def unknownMessage (count : Nat) : DecodedMessage :=
  ⟨1, .command, 0, 2,
    [textField "command" (List.replicate count 0x78),
      (utf16 "parameters", .document [])]⟩

/-- A server without databases. -/
def emptyServer : Server :=
  ⟨⟨none, .empty⟩, ⟨.empty, 1, 600000, 1000000⟩⟩

/-- No command has such a name. -/
theorem ofName?_replicate
    (count : Nat) :
    ServerCommand.ofName? (List.replicate count 0x78) = none := by
  unfold ServerCommand.ofName?
  rw [List.find?_eq_none]
  intro command _ isName
  have letters : command.name.all (· == 0x78) = true := by
    rw [eq_of_beq isName, List.all_replicate]
    simp
  have others : command.name.all (· == 0x78) = false := by
    cases command <;> decide
  rw [others] at letters
  cases letters

/-- A name of 8,400,000 letters ends the process. -/
theorem unknownCommand_answers_iff_endless :
    ¬ ∃ later events answer,
      Session.handleMessage { state := .ready } (unknownMessage 8400000)
          ⟨0, by decide⟩
          (emptyServer.dispatch
            (commandEnvelope (unknownMessage 8400000).payload)
            ⟨fun _ => ⟨List.replicate 16 7, CustomId.length_repeated 7⟩, 0,
              0⟩).1
          false =
          .ok (later, events) ∧
        events.filterMap SessionEvent.made? = [answer] ∧
          answer.requestId = (unknownMessage 8400000).requestId := by
  have name (count : Nat) :
      (commandEnvelope (unknownMessage count).payload).command =
        List.replicate count 0x78 :=
    rfl
  have plain (count : Nat) :
      ∀ unit ∈ (List.replicate count 0x78 : JsString), unit = 0x78 :=
    fun unit member => List.eq_of_mem_replicate member
  have wellFormed (count : Nat) :
      isWellFormed (List.replicate count 0x78) = true :=
    isWellFormed_of_plain fun unit member => by
      rw [plain count unit member]
      decide
  have size (count : Nat) :
      byteLength (List.replicate count 0x78) = count := by
    unfold byteLength
    rw [length_encode_ascii, List.length_replicate]
    intro unit member
    rw [plain count unit member]
    decide
  have valid (count : Nat) (some : 0 < count) :
      validateMessagePayload .command (unknownMessage count).payload =
        .ok () := by
    have named :
        isNonEmptyString (Option.some (.string (List.replicate count 0x78))) =
          true := by
      have letters : 0 < (List.replicate count (0x78 : UInt16)).length := by
        rw [List.length_replicate]
        exact some
      exact decide_eq_true letters
    have checks :
        validateMessagePayload .command (unknownMessage count).payload =
          (do
            checkPayload .command
              (isNonEmptyString
                (Option.some (.string (List.replicate count 0x78))))
              "Command name must be a non-empty string."
            .ok ()) :=
      rfl
    rw [checks, named]
    rfl
  have endless (count : Nat) (some : 0 < count)
      (long : maxPayloadSize < 126 + 2 * count) :
      ¬ ∃ later events answer,
        Session.handleMessage { state := .ready } (unknownMessage count)
            ⟨0, by decide⟩
            (emptyServer.dispatch
              (commandEnvelope (unknownMessage count).payload)
              ⟨fun _ => ⟨List.replicate 16 7, CustomId.length_repeated 7⟩, 0,
                0⟩).1
            false =
            .ok (later, events) ∧
          events.filterMap SessionEvent.made? = [answer] ∧
            answer.requestId = (unknownMessage count).requestId := by
    have quoted := length_encode_le_quote (wellFormed count)
    have least := size count
    have two : 2 ≤ maxRequestId := by
      decide
    have isNumber : (unknownMessage count).requestId ≤ maxRequestId :=
      two
    rw [@unknownCommand_answers_iff { state := .ready } (unknownMessage count)
      isNumber (valid count some) rfl (ofName?_replicate count)
      (wellFormed count), name]
    unfold byteLength at least ⊢
    omega
  have limit : maxPayloadSize = 16777216 := rfl
  exact endless 8400000 (by omega) (by omega)

end UnknownCommand

end SinterDb
