import SinterDb.Protocol.MessageStream
import SinterDb.Server.CommandDispatcher

namespace SinterDb

open Unicode

/-!
# Sessions

`ServerSession`: the state of one connection and what it does with messages.
The session owns its socket, of which it matters what was written to it and
whether it has ended.  What the dispatcher answers to a command, and whether
writes are waiting for a flush by then, comes from outside.
-/

/-- `ServerSessionState`. -/
inductive ServerSessionState where
  | awaitingHandshake
  | ready
  | closing
  | closed
  deriving Repr, DecidableEq

/-- The number of a `WireErrorCode`. -/
def WireErrorCode.number : WireErrorCode → Nat
  | .invalidRequest => 1000
  | .unknownCommand => 1003
  | .namespaceConflict => 3001
  | .documentValidationFailed => 4000
  | .duplicateKey => 4001
  | .invalidUpdate => 4002
  | .immutableId => 4003
  | .cursorNotFound => 5000
  | .invalidIndex => 6000
  | .indexNotFound => 6001
  | .indexConflict => 6002
  | .internalError => 9000

/-- `WireErrorCode.UnsupportedProtocolVersion`. -/
def unsupportedProtocolVersion : Nat := 1001

/-- The name of a `CommandExecutionError`. -/
def WireErrorCode.text : WireErrorCode → String
  | .invalidRequest => "InvalidRequest"
  | .unknownCommand => "UnknownCommand"
  | .namespaceConflict => "NamespaceConflict"
  | .documentValidationFailed => "DocumentValidationFailed"
  | .duplicateKey => "DuplicateKey"
  | .invalidUpdate => "InvalidUpdate"
  | .immutableId => "ImmutableId"
  | .cursorNotFound => "CursorNotFound"
  | .invalidIndex => "InvalidIndex"
  | .indexNotFound => "IndexNotFound"
  | .indexConflict => "IndexConflict"
  | .internalError => "InternalError"

/-- The text of a `ProtocolErrorCode`. -/
def ProtocolErrorCode.text : ProtocolErrorCode → String
  | .invalidMagic => "INVALID_MAGIC"
  | .unsupportedVersion => "UNSUPPORTED_VERSION"
  | .invalidMessageKind => "INVALID_MESSAGE_KIND"
  | .invalidFlags => "INVALID_FLAGS"
  | .invalidRequestId => "INVALID_REQUEST_ID"
  | .invalidPayload => "INVALID_PAYLOAD"
  | .payloadTooLarge => "PAYLOAD_TOO_LARGE"
  | .incompleteFrame => "INCOMPLETE_FRAME"
  | .payloadLengthMismatch => "PAYLOAD_LENGTH_MISMATCH"
  | .invalidDocumentValue => "INVALID_DOCUMENT_VALUE"
  | .integerOutOfRange => "INTEGER_OUT_OF_RANGE"
  | .invalidDate => "INVALID_DATE"
  | .documentTooDeep => "DOCUMENT_TOO_DEEP"
  | .cyclicDocument => "CYCLIC_DOCUMENT"
  | .unexpectedEnd => "UNEXPECTED_END"
  | .unknownValueTag => "UNKNOWN_VALUE_TAG"
  | .invalidUtf8 => "INVALID_UTF8"
  | .duplicateDocumentKey => "DUPLICATE_DOCUMENT_KEY"
  | .trailingData => "TRAILING_DATA"
  | .invalidMessagePayload => "INVALID_MESSAGE_PAYLOAD"

/-- `ErrorEnvelope`. -/
structure ErrorEnvelope where
  code : Nat
  name : String
  message : JsString
  details : Option Document := none

/-- An envelope as a document; a session never asks for a retry. -/
def ErrorEnvelope.toDocument (envelope : ErrorEnvelope) : Document :=
  [numberField "code" envelope.code,
    textField "name" (utf16 envelope.name),
    textField "message" envelope.message,
    (utf16 "retryable", .boolean false)] ++
    (envelope.details.map fun details =>
      (utf16 "details", DocumentValue.document details)).toList

/-- An `InvalidRequest` of the session itself. -/
def invalidRequest (message : String) : ErrorEnvelope :=
  ⟨WireErrorCode.invalidRequest.number, "InvalidRequest", utf16 message, none⟩

/-- The envelope of what `dispatch` throws. -/
def CommandExecutionError.envelope
    (error : CommandExecutionError) : ErrorEnvelope :=
  ⟨error.code.number, error.code.text, error.message, error.details⟩

/-- The envelope of `failCommand`. -/
def internalFailure : ErrorEnvelope :=
  ⟨WireErrorCode.internalError.number, "InternalError",
    utf16 "The server failed to execute the command.", none⟩

/-- The envelope of a result that does not fit. -/
def resultTooLarge : ErrorEnvelope :=
  ⟨WireErrorCode.internalError.number, "ResultTooLarge",
    utf16 ("The result is larger than the 16 MiB message limit. Request " ++
      "fewer or smaller documents."),
    none⟩

/-- The envelope of a handshake with another version. -/
def versionMismatch (version : Int) : ErrorEnvelope :=
  ⟨unsupportedProtocolVersion, "UnsupportedProtocolVersion",
    utf16 s!"Protocol version {version} is not supported.", none⟩

/-- The envelope of a stream that cannot be decoded. -/
def ProtocolError.envelope (error : ProtocolError) : ErrorEnvelope :=
  ⟨WireErrorCode.invalidRequest.number, "InvalidRequest", error.message,
    some [textField "protocolErrorCode" (utf16 error.code.text)]⟩

/-- The handshake of a server. -/
def serverHandshake : Document :=
  [textField "role" (utf16 "server"),
    numberField "protocolVersion" protocolVersion,
    textField "product" (utf16 serverProduct),
    textField "productVersion" (utf16 serverProductVersion),
    (utf16 "capabilities",
      .array [.string (utf16 "typed-documents"), .string (utf16 "streaming")])]

/-- The answer to a ping. -/
def pong (sentAt : DocumentValue) (receivedAt : TimeValue) : Document :=
  [(utf16 "ok", .boolean true), (utf16 "sentAt", sentAt),
    (utf16 "receivedAt", .date (some receivedAt))]

/-- The frame that answers a request; it may answer a command. -/
structure Answer where
  requestId : Nat
  toCommand : Bool
  bytes : Bytes
  isFrame : ∃ kind payload, bytes = rawFrame kind 0 requestId payload

/-- What a session does: it makes an answer and writes it to its socket, it
calls `whenDurable` and `onError`. -/
inductive SessionEvent where
  | made (answer : Answer)
  | sent (answer : Answer)
  | waits
  | failed

namespace SessionEvent

/-- The answer that was made. -/
def made? : SessionEvent → Option Answer
  | .made answer => some answer
  | _ => none

/-- The answer that was written to the socket. -/
def sent? : SessionEvent → Option Answer
  | .sent answer => some answer
  | _ => none

/-- The session waits for a flush. -/
def isWaits : SessionEvent → Bool
  | .waits => true
  | _ => false

/-- The session calls `onError`. -/
def isFailed : SessionEvent → Bool
  | .failed => true
  | _ => false

end SessionEvent

/-- `ServerSession`, with its socket, and with whether `onError` returns: the
server emits its error, which throws when nobody listens. -/
structure Session where
  onErrorReturns : Bool := true
  decoder : MessageStreamDecoder := {}
  state : ServerSessionState := .awaitingHandshake
  held : List Answer := []
  holding : Bool := false
  endAfterRelease : Bool := false
  ended : Bool := false
  destroyed : Bool := false

/-- What is encoded for a request is a frame with its id. -/
theorem isFrame_of_encodeMessage
    {kind : MessageKind}
    {requestId : Nat}
    {payload : Document}
    {bytes : Bytes}
    (encodes :
      encodeMessage
          { kind := kind, requestId := requestId, payload := payload } =
        .ok bytes) :
    ∃ kind payload, bytes = rawFrame kind 0 requestId payload := by
  rcases Result.bind_eq_ok.mp encodes with ⟨encoded, -, frames⟩
  rcases encodeFrame_ok frames with ⟨-, -, -, -, -, same⟩
  exact ⟨kind, encoded, same⟩

/-- What a session throws: the error of `encodeMessage`, or the one that it has
given to `onError`. -/
inductive SessionError where
  | notEncoded (error : ProtocolError)
  | notHeard
  deriving Repr, DecidableEq

/-- The error says that the payload is too large. -/
def SessionError.isTooLarge : SessionError → Bool
  | .notEncoded error => error.code == .payloadTooLarge
  | .notHeard => false

/-- `encodeMessage`, for an answer. -/
def encodeAnswer
    (kind : MessageKind)
    (requestId : Nat)
    (payload : Document)
    (toCommand : Bool) : Except SessionError Answer :=
  match encodes :
    encodeMessage
      { kind := kind, requestId := requestId, payload := payload } with
  | .error error => .error (.notEncoded error)
  | .ok bytes =>
      .ok ⟨requestId, toCommand, bytes, isFrame_of_encodeMessage encodes⟩

namespace Session

/-- What a step of a session leaves and does, unless it throws. -/
abbrev Step := Except SessionError (Session × List SessionEvent)

/-- `canReceiveMessages`. -/
def canReceiveMessages (session : Session) : Bool :=
  session.state == .awaitingHandshake || session.state == .ready

/-- `socket.write`; nothing arrives behind the end. -/
def socketWrite (session : Session) (answer : Answer) : List SessionEvent :=
  if session.ended || session.destroyed then [] else [.sent answer]

/-- `write`. -/
def write
    (session : Session)
    (answer : Answer) : Session × List SessionEvent :=
  if session.holding then
    ({ session with held := session.held ++ [answer] }, [.made answer])
  else
    (session, .made answer :: session.socketWrite answer)

/-- `send`. -/
def send
    (session : Session)
    (kind : MessageKind)
    (requestId : Nat)
    (payload : Document)
    (toCommand : Bool) : Step := do
  let answer ← encodeAnswer kind requestId payload toCommand
  return session.write answer

/-- `sendError` on a connection that stays. -/
def sendError
    (session : Session)
    (requestId : Nat)
    (envelope : ErrorEnvelope)
    (toCommand : Bool) : Step := do
  let answer ←
    encodeAnswer .error requestId envelope.toDocument toCommand
  return session.write answer

/-- `sendError` that closes the connection. -/
def sendErrorAndClose
    (session : Session)
    (requestId : Nat)
    (envelope : ErrorEnvelope) : Step := do
  let answer ← encodeAnswer .error requestId envelope.toDocument false
  let session := { session with state := .closing }
  if session.holding then
    return ({ session with
        held := session.held ++ [answer]
        endAfterRelease := true },
      [.made answer])
  else
    return ({ session with ended := true },
      .made answer :: session.socketWrite answer)

/-- `holdUntilDurable`. -/
def holdUntilDurable
    (session : Session)
    (hasPending : Bool) : Session × List SessionEvent :=
  if session.holding || !hasPending then
    (session, [])
  else
    ({ session with holding := true }, [.waits])

/-- `release`; when `onError` throws, the process ends and its sockets too. -/
def release
    (session : Session)
    (failed : Bool) : Session × List SessionEvent :=
  let released :=
    { session with holding := false, held := [], endAfterRelease := false }
  if session.destroyed || session.ended then
    (released, [])
  else if failed then
    ({ released with destroyed := true }, [.failed])
  else
    ({ released with ended := session.endAfterRelease },
      session.held.map .sent)

/-- `failCommand`. -/
def failCommand (session : Session) (requestId : Nat) : Step :=
  if session.onErrorReturns then do
    let (session, events) ← session.sendError requestId internalFailure true
    return (session, .failed :: events)
  else
    .error .notHeard

/-- `handleCommand` behind the hold. -/
def answerCommand
    (session : Session)
    (requestId : Nat)
    (reply : Reply) : Step :=
  match reply with
  | .error (.command error) =>
      session.sendError requestId error.envelope true
  | .error (.rethrown _) => session.failCommand requestId
  | .ok value =>
      match
        session.send .result requestId [(utf16 "value", .document value)]
          true with
      | .ok sent => .ok sent
      | .error error =>
          if error.isTooLarge then
            session.sendError requestId resultTooLarge true
          else
            session.failCommand requestId

/-- `handleCommand`; the dispatcher has answered. -/
def handleCommand
    (session : Session)
    (requestId : Nat)
    (reply : Reply)
    (hasPending : Bool) : Step := do
  let (session, waits) := session.holdUntilDurable hasPending
  let (session, events) ← session.answerCommand requestId reply
  return (session, waits ++ events)

/-- The version of a handshake. -/
def handshakeVersion (payload : Document) : Int :=
  match payload.get? (utf16 "protocolVersion") with
  | some (.number version) => version.toInt?.getD 0
  | _ => 0

/-- The handshake is from a client. -/
def isFromClient (payload : Document) : Bool :=
  match payload.get? (utf16 "role") with
  | some (.string role) => role == utf16 "client"
  | _ => false

/-- `handleHandshake`. -/
def handleHandshake
    (session : Session)
    (message : DecodedMessage) : Step :=
  if message.kind ≠ .handshake then
    session.sendErrorAndClose message.requestId
      (invalidRequest "The first message on a connection must be a handshake.")
  else if isFromClient message.payload = false then
    session.sendErrorAndClose message.requestId
      (invalidRequest "The opening handshake must use the client role.")
  else if handshakeVersion message.payload ≠ protocolVersion then
    session.sendErrorAndClose message.requestId
      (versionMismatch (handshakeVersion message.payload))
  else do
    let (session, events) ←
      session.send .handshake message.requestId serverHandshake false
    return ({ session with state := .ready }, events)

/-- A message of a session that is ready. -/
def handleReady
    (session : Session)
    (message : DecodedMessage)
    (receivedAt : TimeValue)
    (reply : Reply)
    (hasPending : Bool) : Step :=
  match message.kind with
  | .ping =>
      let sentAt := (message.payload.get? (utf16 "sentAt")).getD .null
      session.send .result message.requestId
        [(utf16 "value", .document (pong sentAt receivedAt))] false
  | .command => session.handleCommand message.requestId reply hasPending
  | .handshake =>
      session.sendError message.requestId
        (invalidRequest "The connection handshake has already completed.")
        false
  | _ =>
      session.sendError message.requestId
        (invalidRequest
          "Clients may only send handshake, ping, and command messages.")
        false

/-- `handleMessage`. -/
def handleMessage
    (session : Session)
    (message : DecodedMessage)
    (receivedAt : TimeValue)
    (reply : Reply)
    (hasPending : Bool) : Step :=
  if message.requestId = 0 then
    session.sendErrorAndClose 0
      (invalidRequest "Client requests must use a non-zero request ID.")
  else if session.state = .awaitingHandshake then
    session.handleHandshake message
  else
    session.handleReady message receivedAt reply hasPending

/-- `handleProtocolFailure`. -/
def handleProtocolFailure (session : Session) (error : ProtocolError) : Step :=
  session.sendErrorAndClose 0 error.envelope

/-- A message makes the session call `dispatch`. -/
def dispatches (session : Session) (message : DecodedMessage) : Bool :=
  message.requestId != 0 && session.state != .awaitingHandshake &&
    message.kind == .command

/-- The handler of the event `close`. -/
def socketClosed (session : Session) : Session :=
  { session with
    decoder := {}
    state := .closed
    destroyed := true }

end Session

end SinterDb
