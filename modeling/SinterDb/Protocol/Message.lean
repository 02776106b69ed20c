import SinterDb.Protocol.Restored

namespace SinterDb

open Unicode Buffer

/-!
# Messages and frames

A message is a document with the fields that its kind asks for, sent in a frame
with a header of sixteen bytes.
-/

/-- `MessageKind`. -/
inductive MessageKind where
  | handshake
  | ping
  | command
  | result
  | streamItem
  | streamEnd
  | error
  deriving Repr, DecidableEq

/-- The number of a kind. -/
def MessageKind.code : MessageKind → Nat
  | .handshake => 0x01
  | .ping => 0x02
  | .command => 0x03
  | .result => 0x04
  | .streamItem => 0x05
  | .streamEnd => 0x06
  | .error => 0x07

/-- The kind with a number. -/
def MessageKind.ofCode? (code : Nat) : Option MessageKind :=
  [MessageKind.handshake, .ping, .command, .result, .streamItem, .streamEnd,
    .error].find? fun kind => kind.code == code

/-- `PROTOCOL_MAGIC`. -/
def protocolMagic : Bytes := [0x53, 0x4e, 0x54, 0x52]

/-- `PROTOCOL_VERSION`. -/
def protocolVersion : Nat := 1

/-- `FRAME_HEADER_SIZE`. -/
def frameHeaderSize : Nat := 16

/-- `MAX_REQUEST_ID`. -/
def maxRequestId : Nat := 0xffffffff

/-- `isDocument`, for a property that may be missing. -/
def isDocument : Option DocumentValue → Bool
  | some (.document _) => true
  | _ => false

/-- `isNonEmptyString`. -/
def isNonEmptyString : Option DocumentValue → Bool
  | some (.string text) => decide (0 < text.length)
  | _ => false

/-- `isUnsignedInteger`. -/
def isUnsignedInteger (maximum : Nat) : Option DocumentValue → Bool
  | some (.number number) =>
      match number.toInt? with
      | some value => decide (0 ≤ value ∧ value ≤ maximum)
      | none => false
  | _ => false

/-- The test for the role of a handshake. -/
def isHandshakeRole : Option DocumentValue → Bool
  | some (.string role) => role == utf16 "client" || role == utf16 "server"
  | _ => false

/-- `payload["protocolVersion"] === 0`. -/
def isZero : Option DocumentValue → Bool
  | some (.number number) => number.toInt? == some 0
  | _ => false

/-- `typeof value === "string"`. -/
def isString : DocumentValue → Bool
  | .string _ => true
  | _ => false

/-- An array of strings. -/
def isStringArray : Option DocumentValue → Bool
  | some (.array items) => items.all isString
  | _ => false

/-- A date with a time value. -/
def isValidDate : Option DocumentValue → Bool
  | some (.date (some _)) => true
  | _ => false

/-- `typeof value === "boolean"`. -/
def isBoolean : Option DocumentValue → Bool
  | some (.boolean _) => true
  | _ => false

/-- `fail`. -/
def failPayload (kind : MessageKind) (reason : String) : ProtocolError :=
  ⟨.invalidMessagePayload,
    utf16 (s!"Invalid message payload for kind {kind.code}: " ++ reason)⟩

/-- One check of a payload. -/
def checkPayload
    (kind : MessageKind)
    (accepted : Bool)
    (reason : String) : Except ProtocolError Unit :=
  if accepted then .ok () else .error (failPayload kind reason)

/-- `validateHandshake`. -/
def validateHandshake (payload : Document) : Except ProtocolError Unit := do
  checkPayload .handshake (isHandshakeRole (payload.get? (utf16 "role")))
    "Handshake role is invalid."
  checkPayload .handshake
    (isUnsignedInteger 0xffff (payload.get? (utf16 "protocolVersion")) &&
      !isZero (payload.get? (utf16 "protocolVersion")))
    "Protocol version must be a positive unsigned 16-bit integer."
  checkPayload .handshake (isNonEmptyString (payload.get? (utf16 "product")))
    "Product name must be a non-empty string."
  checkPayload .handshake
    (isNonEmptyString (payload.get? (utf16 "productVersion")))
    "Product version must be a non-empty string."
  checkPayload .handshake
    (isStringArray (payload.get? (utf16 "capabilities")))
    "Capabilities must be an array of strings."

/-- `validatePing`. -/
def validatePing (payload : Document) : Except ProtocolError Unit :=
  checkPayload .ping (isValidDate (payload.get? (utf16 "sentAt")))
    "Ping timestamp must be a valid Date."

/-- `validateCommand`. -/
def validateCommand (payload : Document) : Except ProtocolError Unit := do
  checkPayload .command (isNonEmptyString (payload.get? (utf16 "command")))
    "Command name must be a non-empty string."
  checkPayload .command
    ((payload.get? (utf16 "database")).isNone ||
      isNonEmptyString (payload.get? (utf16 "database")))
    "Database name must be a non-empty string when provided."
  checkPayload .command (isDocument (payload.get? (utf16 "parameters")))
    "Command parameters must be a document."

/-- `validateResult`. -/
def validateResult (payload : Document) : Except ProtocolError Unit :=
  checkPayload .result (payload.get? (utf16 "value")).isSome
    "Result payload must contain a \"value\" field."

/-- `validateStreamItem`. -/
def validateStreamItem (payload : Document) : Except ProtocolError Unit := do
  checkPayload .streamItem
    (isUnsignedInteger (2 ^ 53 - 1) (payload.get? (utf16 "sequence")))
    "Stream sequence must be a non-negative safe integer."
  checkPayload .streamItem (payload.get? (utf16 "value")).isSome
    "Stream item must contain a \"value\" field."

/-- `validateStreamEnd`. -/
def validateStreamEnd (payload : Document) : Except ProtocolError Unit :=
  checkPayload .streamEnd
    (isUnsignedInteger (2 ^ 53 - 1) (payload.get? (utf16 "count")))
    "Stream count must be a non-negative safe integer."

/-- `validateError`. -/
def validateError (payload : Document) : Except ProtocolError Unit := do
  checkPayload .error
    (isUnsignedInteger 0xffffffff (payload.get? (utf16 "code")))
    "Error code must be an unsigned 32-bit integer."
  checkPayload .error (isNonEmptyString (payload.get? (utf16 "name")))
    "Error name must be a non-empty string."
  checkPayload .error (isNonEmptyString (payload.get? (utf16 "message")))
    "Error message must be a non-empty string."
  checkPayload .error (isBoolean (payload.get? (utf16 "retryable")))
    "Error retryable flag must be a boolean."
  checkPayload .error
    ((payload.get? (utf16 "details")).isNone ||
      isDocument (payload.get? (utf16 "details")))
    "Error details must be a document when provided."

/-- `validateMessagePayload`; a payload is a document by its type. -/
def validateMessagePayload :
    MessageKind → Document → Except ProtocolError Unit
  | .handshake, payload => validateHandshake payload
  | .ping, payload => validatePing payload
  | .command, payload => validateCommand payload
  | .result, payload => validateResult payload
  | .streamItem, payload => validateStreamItem payload
  | .streamEnd, payload => validateStreamEnd payload
  | .error, payload => validateError payload

/-- `encodeMessagePayload`. -/
def encodeMessagePayload
    (kind : MessageKind)
    (payload : Document) : Except ProtocolError Bytes := do
  validateMessagePayload kind payload
  encodeDocument payload

/-- `decodeMessagePayload`. -/
def decodeMessagePayload
    (kind : MessageKind)
    (encoded : Bytes) : Except ProtocolError Document := do
  let payload ← decodeDocument encoded
  validateMessagePayload kind payload
  return payload

/-- `Frame`. -/
structure Frame where
  version : Nat
  kind : MessageKind
  flags : Nat
  requestId : Nat
  payload : Bytes
  deriving Repr, DecidableEq

/-- `FrameHeader`. -/
structure FrameHeader where
  version : Nat
  kind : MessageKind
  flags : Nat
  requestId : Nat
  payloadLength : Nat
  deriving Repr, DecidableEq

/-- `validateFlags`: only the bit of `FrameFlag.More` is supported. -/
def validateFlags (flags : Int) : Except ProtocolError Unit :=
  if 0 ≤ flags ∧ flags ≤ 0xff ∧ flags.toNat &&& 0xfe = 0 then
    .ok ()
  else
    .error ⟨.invalidFlags, utf16 s!"Unsupported frame flags {flags}."⟩

/-- `validateRequestId`. -/
def validateRequestId (requestId : Int) : Except ProtocolError Unit :=
  if requestId < 0 ∨ (maxRequestId : Int) < requestId then
    .error ⟨.invalidRequestId,
      utf16 (s!"Request ID {requestId} is outside the unsigned 32-bit " ++
        "range.")⟩
  else
    .ok ()

/-- The error of a payload that is too long for a frame. -/
def payloadLengthExceeds (length : Nat) : ProtocolError :=
  ⟨.payloadTooLarge,
    utf16 (s!"Payload length {length} exceeds the " ++
      s!"{maxPayloadSize}-byte limit.")⟩

/-- `validatePayload`. -/
def validatePayload (payload : Bytes) : Except ProtocolError Unit :=
  if maxPayloadSize < payload.length then
    .error (payloadLengthExceeds payload.length)
  else
    .ok ()

/-- The bytes of a frame. -/
def rawFrame
    (kind : MessageKind)
    (flags requestId : Nat)
    (payload : Bytes) : Bytes :=
  protocolMagic ++
    (BigEndian.encode 2 protocolVersion ++
      (BigEndian.encode 1 kind.code ++
        (BigEndian.encode 1 flags ++
          (BigEndian.encode 4 requestId ++
            (BigEndian.encode 4 payload.length ++ payload)))))

/-- `encodeFrame`. -/
def encodeFrame
    (kind : MessageKind)
    (requestId : Int)
    (payload : Bytes)
    (flags : Option Int) : Except ProtocolError Bytes := do
  validateRequestId requestId
  validateFlags (flags.getD 0)
  validatePayload payload
  return rawFrame kind (flags.getD 0).toNat requestId.toNat payload

/-- `validateMagic`. -/
def validateMagic (data : Bytes) : Except ProtocolError Unit :=
  if data.take 4 = protocolMagic then
    .ok ()
  else
    .error ⟨.invalidMagic,
      utf16 "Frame does not contain the SinterDB protocol signature."⟩

/-- `readFrameHeader`. -/
def readFrameHeader (data : Bytes) : Except ProtocolError FrameHeader := do
  if data.length < frameHeaderSize then
    throw ⟨.incompleteFrame,
      utf16 s!"A frame requires at least {frameHeaderSize} bytes."⟩
  validateMagic data
  let version := readUIntBE data 4 2
  let kind := readUIntBE data 6 1
  let flags : Nat := readUIntBE data 7 1
  let requestId := readUIntBE data 8 4
  let payloadLength := readUIntBE data 12 4
  if version ≠ protocolVersion then
    throw ⟨.unsupportedVersion,
      utf16 (s!"Unsupported protocol version {version}. Expected " ++
        s!"{protocolVersion}.")⟩
  match MessageKind.ofCode? kind with
  | none =>
      throw ⟨.invalidMessageKind, utf16 s!"Unknown message kind {kind}."⟩
  | some kind =>
      validateFlags (flags : Int)
      if maxPayloadSize < payloadLength then
        throw (payloadLengthExceeds payloadLength)
      return ⟨version, kind, flags, requestId, payloadLength⟩

/-- `getFrameLength`. -/
def getFrameLength (data : Bytes) : Except ProtocolError Nat := do
  let header ← readFrameHeader data
  return frameHeaderSize + header.payloadLength

/-- `decodeFrame`. -/
def decodeFrame (data : Bytes) : Except ProtocolError Frame := do
  let header ← readFrameHeader data
  let expectedLength := frameHeaderSize + header.payloadLength
  if data.length < expectedLength then
    throw ⟨.incompleteFrame,
      utf16 (s!"Frame declares {header.payloadLength} payload bytes but " ++
        s!"only {data.length - frameHeaderSize} are available.")⟩
  if expectedLength < data.length then
    throw ⟨.payloadLengthMismatch,
      utf16 (s!"Frame contains {data.length - expectedLength} unexpected " ++
        "trailing bytes.")⟩
  return ⟨header.version, header.kind, header.flags, header.requestId,
    data.drop frameHeaderSize⟩

/-- `MessageInput`. -/
structure MessageInput where
  kind : MessageKind
  requestId : Int
  payload : Document
  flags : Option Int := none
  deriving Repr, DecidableEq

/-- `DecodedMessage`. -/
structure DecodedMessage where
  version : Nat
  kind : MessageKind
  flags : Nat
  requestId : Nat
  payload : Document
  deriving Repr, DecidableEq

/-- `encodeMessage`. -/
def encodeMessage (input : MessageInput) : Except ProtocolError Bytes := do
  let payload ← encodeMessagePayload input.kind input.payload
  encodeFrame input.kind input.requestId payload input.flags

/-- `decodeMessage`. -/
def decodeMessage (encoded : Bytes) : Except ProtocolError DecodedMessage := do
  let frame ← decodeFrame encoded
  let payload ← decodeMessagePayload frame.kind frame.payload
  return ⟨frame.version, frame.kind, frame.flags, frame.requestId, payload⟩

end SinterDb
