import SinterDb.Protocol.Message

namespace SinterDb

open Unicode Buffer

/-!
# Messages come back

A frame is read back from its bytes, whatever follows it, and a payload that
the document codec restores passes the checks that the original passed.
-/

/-- An optional value that is equal to another one, or missing like it. -/
def SameProperty (left right : Option DocumentValue) : Prop :=
  Option.Rel DocumentValue.SameValue left right

/-- Equal documents have equal properties. -/
theorem Document.sameProperty
    {left right : Document}
    (distinct : (left.map Prod.fst).Nodup)
    (same :
      (DocumentValue.document left).SameValue (.document right))
    (key : JsString) :
    SameProperty (Document.get? left key) (Document.get? right key) := by
  obtain ⟨keys, fields⟩ := same
  rw [DocumentValue.sameFields_iff_forall] at fields
  have rightDistinct := keys.nodup_iff.mp distinct
  cases found : Document.get? left key with
  | some value =>
      obtain ⟨other, member, isSame⟩ :=
        fields (key, value) (Document.mem_of_get? found)
      rw [Document.get?_of_mem rightDistinct member]
      exact .some isSame
  | none =>
      cases other : Document.get? right key with
      | none =>
          exact .none
      | some value =>
          have member : key ∈ right.map Prod.fst :=
            List.mem_map.mpr ⟨_, Document.mem_of_get? other, rfl⟩
          obtain ⟨field, inLeft, rfl⟩ :=
            List.mem_map.mp (keys.mem_iff.mpr member)
          rw [Document.get?_of_mem distinct inLeft] at found
          cases found

namespace SameProperty

variable
  {left right : Option DocumentValue}

/-- Equal properties are present together. -/
theorem isSome
    (same : SameProperty left right) :
    left.isSome = right.isSome := by
  cases same <;> rfl

/-- Equal properties are missing together. -/
theorem isNone
    (same : SameProperty left right) :
    left.isNone = right.isNone := by
  cases same <;> rfl

/--
Two equal properties are the same, unless both are arrays with equal items or
both are documents.
-/
theorem shapes
    (same : SameProperty left right) :
    left = right ∨
      (∃ items others,
        left = some (.array items) ∧ right = some (.array others) ∧
          DocumentValue.SameItems items others) ∨
      ∃ fields others,
        left = some (.document fields) ∧ right = some (.document others) := by
  cases same with
  | none =>
      exact .inl rfl
  | @some value other same =>
      cases value <;> cases other <;>
        simp only [DocumentValue.SameValue, reduceCtorEq] at same
      case array.array items others =>
        exact .inr (.inl ⟨items, others, rfl, rfl, same⟩)
      case document.document fields others =>
        exact .inr (.inr ⟨fields, others, rfl, rfl⟩)
      case null.null =>
        exact .inl rfl
      all_goals exact .inl (congrArg some same)

end SameProperty

/-- A test of a property that does not look into arrays and documents. -/
structure TestsScalar (test : Option DocumentValue → Bool) : Prop where
  array :
    ∀ items others,
      test (some (.array items)) = test (some (.array others))
  document :
    ∀ fields others,
      test (some (.document fields)) = test (some (.document others))

/-- Such a test does not distinguish equal properties. -/
theorem TestsScalar.sameAnswer
    {test : Option DocumentValue → Bool}
    (scalar : TestsScalar test)
    {left right : Option DocumentValue}
    (same : SameProperty left right) :
    test left = test right := by
  rcases same.shapes with rfl | ⟨items, others, rfl, rfl, -⟩ |
    ⟨fields, others, rfl, rfl⟩
  · rfl
  · exact scalar.array items others
  · exact scalar.document fields others

/-- Equal values are strings together. -/
theorem isString_agrees
    {value other : DocumentValue}
    (same : value.SameValue other) :
    isString value = isString other := by
  cases value <;> cases other <;> simp_all [DocumentValue.SameValue, isString]

/-- Equal lists consist of strings together. -/
theorem all_isString_agrees
    {items others : List DocumentValue}
    (same : DocumentValue.SameItems items others) :
    items.all isString = others.all isString := by
  induction items generalizing others with
  | nil =>
      cases others with
      | nil =>
          rfl
      | cons other others =>
          exact same.elim
  | cons item items inductionHypothesis =>
      cases others with
      | nil =>
          exact same.elim
      | cons other others =>
          obtain ⟨first, rest⟩ := same
          rw [List.all_cons, List.all_cons, isString_agrees first,
            inductionHypothesis rest]

/-- The test for an array of strings does not distinguish equal properties. -/
theorem isStringArray_agrees
    {left right : Option DocumentValue}
    (same : SameProperty left right) :
    isStringArray left = isStringArray right := by
  rcases same.shapes with rfl | ⟨items, others, rfl, rfl, sameItems⟩ |
    ⟨fields, others, rfl, rfl⟩
  · rfl
  · exact all_isString_agrees sameItems
  · rfl

/-- Equal payloads pass the same checks. -/
theorem validateMessagePayload_agrees
    {left right : Document}
    (distinct : (left.map Prod.fst).Nodup)
    (same :
      (DocumentValue.document left).SameValue (.document right))
    (kind : MessageKind) :
    validateMessagePayload kind left = validateMessagePayload kind right := by
  have properties := Document.sameProperty distinct same
  have scalar :
      ∀ test, TestsScalar test →
        ∀ key : JsString,
          test (Document.get? left key) = test (Document.get? right key) :=
    fun test scalar key => scalar.sameAnswer (properties key)
  have strings := fun key => isStringArray_agrees (properties key)
  have present := fun key => (properties key).isSome
  have absent := fun key => (properties key).isNone
  have roles := scalar isHandshakeRole ⟨fun _ _ => rfl, fun _ _ => rfl⟩
  have texts := scalar isNonEmptyString ⟨fun _ _ => rfl, fun _ _ => rfl⟩
  have integers := fun maximum =>
    scalar (isUnsignedInteger maximum) ⟨fun _ _ => rfl, fun _ _ => rfl⟩
  have zeros := scalar isZero ⟨fun _ _ => rfl, fun _ _ => rfl⟩
  have dates := scalar isValidDate ⟨fun _ _ => rfl, fun _ _ => rfl⟩
  have documents := scalar isDocument ⟨fun _ _ => rfl, fun _ _ => rfl⟩
  have booleans := scalar isBoolean ⟨fun _ _ => rfl, fun _ _ => rfl⟩
  cases kind with
  | handshake =>
      simp only [validateMessagePayload, validateHandshake, roles, integers,
        zeros, texts, strings]
  | ping =>
      simp only [validateMessagePayload, validatePing, dates]
  | command =>
      simp only [validateMessagePayload, validateCommand, texts, absent,
        documents]
  | result =>
      simp only [validateMessagePayload, validateResult, present]
  | streamItem =>
      simp only [validateMessagePayload, validateStreamItem, integers,
        present]
  | streamEnd =>
      simp only [validateMessagePayload, validateStreamEnd, integers]
  | error =>
      simp only [validateMessagePayload, validateError, integers, texts,
        booleans, absent, documents]

/-- The header decides what `readFrameHeader` returns. -/
theorem readFrameHeader_append
    (front more : Bytes)
    (long : frameHeaderSize ≤ front.length) :
    readFrameHeader (front ++ more) = readFrameHeader front := by
  have length : 16 ≤ front.length := long
  have longer : ¬ (front ++ more).length < frameHeaderSize := by
    rw [List.length_append]
    omega
  have magic : validateMagic (front ++ more) = validateMagic front := by
    unfold validateMagic
    rw [List.take_append_of_le_length (by omega)]
  unfold readFrameHeader
  rw [if_neg longer, if_neg (Nat.not_lt.mpr long), magic,
    readUIntBE_append front more (by omega),
    readUIntBE_append front more (by omega),
    readUIntBE_append front more (by omega),
    readUIntBE_append front more (by omega),
    readUIntBE_append front more (by omega)]

/-- The header decides the length of a frame. -/
theorem getFrameLength_append
    (front more : Bytes)
    (long : frameHeaderSize ≤ front.length) :
    getFrameLength (front ++ more) = getFrameLength front := by
  unfold getFrameLength
  rw [readFrameHeader_append front more long]

/-- A frame is at least as long as its header. -/
theorem frameHeaderSize_le_of_getFrameLength
    {data : Bytes}
    {length : Nat}
    (hasLength : getFrameLength data = .ok length) :
    frameHeaderSize ≤ length := by
  obtain ⟨header, -, isLength⟩ := Result.bind_eq_ok.mp hasLength
  obtain rfl := Except.ok.inj isLength
  exact Nat.le_add_right _ _

/-- The flags that are supported. -/
theorem validateFlags_ok
    {flags : Int} :
    validateFlags flags = .ok () ↔ 0 ≤ flags ∧ flags ≤ 1 := by
  have bits :
      ∀ value : Nat, value < 256 → (value &&& 0xfe = 0 ↔ value ≤ 1) := by
    decide +kernel
  unfold validateFlags
  constructor
  · intro accepted
    split_ifs at accepted with supported
    obtain ⟨least, most, noOther⟩ := supported
    have small := (bits flags.toNat (by omega)).mp noOther
    exact ⟨least, by omega⟩
  · rintro ⟨least, most⟩
    rw [if_pos ⟨least, by omega, (bits flags.toNat (by omega)).mpr (by omega)⟩]

/-- A kind is found by its number. -/
theorem ofCode?_code
    (kind : MessageKind) :
    MessageKind.ofCode? kind.code = some kind := by
  cases kind <;> rfl

/-- The header of a frame. -/
def rawHeader
    (kind : MessageKind)
    (flags requestId payloadLength : Nat) : Bytes :=
  protocolMagic ++
    (BigEndian.encode 2 protocolVersion ++
      (BigEndian.encode 1 kind.code ++
        (BigEndian.encode 1 flags ++
          (BigEndian.encode 4 requestId ++
            BigEndian.encode 4 payloadLength))))

/-- A frame is its header and its payload. -/
theorem rawFrame_eq
    (kind : MessageKind)
    (flags requestId : Nat)
    (payload : Bytes) :
    rawFrame kind flags requestId payload =
      rawHeader kind flags requestId payload.length ++ payload := by
  simp only [rawFrame, rawHeader, List.append_assoc]

/-- The length of a header. -/
@[simp] theorem length_rawHeader
    (kind : MessageKind)
    (flags requestId payloadLength : Nat) :
    (rawHeader kind flags requestId payloadLength).length =
      frameHeaderSize := by
  simp [rawHeader, protocolMagic, frameHeaderSize]

/-- A header is read back. -/
theorem readFrameHeader_rawHeader
    (kind : MessageKind)
    {flags requestId payloadLength : Nat}
    (isFlags : flags ≤ 1)
    (isRequestId : requestId ≤ maxRequestId)
    (fits : payloadLength ≤ maxPayloadSize) :
    readFrameHeader (rawHeader kind flags requestId payloadLength) =
      .ok ⟨protocolVersion, kind, flags, requestId, payloadLength⟩ := by
  have smallId : requestId < 256 ^ 4 := by
    unfold maxRequestId at isRequestId
    omega
  have smallPayload : payloadLength < 256 ^ 4 := by
    unfold maxPayloadSize at fits
    omega
  have smallCode : kind.code < 256 ^ 1 := by
    cases kind <;> decide
  have magic :
      validateMagic (rawHeader kind flags requestId payloadLength) =
        .ok () := by
    unfold validateMagic rawHeader
    rw [if_pos (by simp [protocolMagic])]
  have version :
      readUIntBE (rawHeader kind flags requestId payloadLength) 4 2 =
        protocolVersion := by
    unfold rawHeader
    rw [readUIntBE_middle _ _ _ (by simp [protocolMagic]) (by simp),
      BigEndian.decode_encode_of_lt (by decide)]
  have isKind :
      readUIntBE (rawHeader kind flags requestId payloadLength) 6 1 =
        kind.code := by
    unfold rawHeader
    rw [← List.append_assoc protocolMagic,
      readUIntBE_middle _ _ _ (by simp [protocolMagic]) (by simp),
      BigEndian.decode_encode_of_lt smallCode]
  have areFlags :
      readUIntBE (rawHeader kind flags requestId payloadLength) 7 1 =
        flags := by
    unfold rawHeader
    rw [← List.append_assoc protocolMagic,
      ← List.append_assoc (protocolMagic ++ _),
      readUIntBE_middle _ _ _ (by simp [protocolMagic]) (by simp),
      BigEndian.decode_encode_of_lt (by omega)]
  have isId :
      readUIntBE (rawHeader kind flags requestId payloadLength) 8 4 =
        requestId := by
    unfold rawHeader
    rw [← List.append_assoc protocolMagic,
      ← List.append_assoc (protocolMagic ++ _),
      ← List.append_assoc (protocolMagic ++ _ ++ _),
      readUIntBE_middle _ _ _ (by simp [protocolMagic]) (by simp),
      BigEndian.decode_encode_of_lt smallId]
  have isLength :
      readUIntBE (rawHeader kind flags requestId payloadLength) 12 4 =
        payloadLength := by
    unfold rawHeader
    rw [← List.append_assoc protocolMagic,
      ← List.append_assoc (protocolMagic ++ _),
      ← List.append_assoc (protocolMagic ++ _ ++ _),
      ← List.append_assoc (protocolMagic ++ _ ++ _ ++ _),
      ← List.append_nil (BigEndian.encode 4 payloadLength),
      readUIntBE_middle _ _ _ (by simp [protocolMagic]) (by simp),
      BigEndian.decode_encode_of_lt smallPayload]
  have supported : validateFlags (flags : Int) = .ok () :=
    validateFlags_ok.mpr ⟨by omega, by omega⟩
  unfold readFrameHeader
  rw [if_neg (by simp), magic, version, isKind, areFlags, isId, isLength]
  simp only [ofCode?_code, supported, Nat.not_lt.mpr fits, ne_eq, not_true,
    if_false, Result.ok_bind]
  rfl

/-- What `encodeFrame` accepts, and the bytes that it returns. -/
theorem encodeFrame_ok
    {kind : MessageKind}
    {requestId : Int}
    {payload bytes : Bytes}
    {flags : Option Int}
    (encodes : encodeFrame kind requestId payload flags = .ok bytes) :
    0 ≤ requestId ∧ requestId ≤ maxRequestId ∧
      0 ≤ flags.getD 0 ∧ flags.getD 0 ≤ 1 ∧
      payload.length ≤ maxPayloadSize ∧
      bytes =
        rawFrame kind (flags.getD 0).toNat requestId.toNat payload := by
  obtain ⟨⟨⟩, isId, encodes⟩ := Result.bind_eq_ok.mp encodes
  obtain ⟨⟨⟩, areFlags, encodes⟩ := Result.bind_eq_ok.mp encodes
  obtain ⟨⟨⟩, fits, encodes⟩ := Result.bind_eq_ok.mp encodes
  unfold validateRequestId at isId
  unfold validatePayload at fits
  split_ifs at isId with outside
  split_ifs at fits with tooLarge
  obtain ⟨least, most⟩ := validateFlags_ok.mp areFlags
  refine ⟨by omega, by omega, least, most, by omega, ?_⟩
  exact (Except.ok.inj encodes).symm

/-- The document codec restores the payload of a message. -/
def MessageInput.Restores (input : MessageInput) : Prop :=
  ∃ bytes decoded,
    encodeDocument input.payload = .ok bytes ∧
      decodeDocument bytes = .ok decoded ∧
      (DocumentValue.document decoded).SameValue (.document input.payload)

/-- A decoded message is the message that was sent. -/
structure MessageInput.IsReceived
    (input : MessageInput)
    (decoded : DecodedMessage) : Prop where
  version : decoded.version = protocolVersion
  kind : decoded.kind = input.kind
  requestId : (decoded.requestId : Int) = input.requestId
  flags : (decoded.flags : Int) = input.flags.getD 0
  payload :
    (DocumentValue.document decoded.payload).SameValue
      (.document input.payload)

/-- A document that was decoded has distinct keys. -/
theorem nodup_of_decodeDocument
    {bytes : Bytes}
    {document decoded : Document}
    (encodes : encodeDocument document = .ok bytes)
    (decodes : decodeDocument bytes = .ok decoded) :
    (decoded.map Prod.fst).Nodup := by
  obtain ⟨value, restores, isDocument⟩ := Result.bind_eq_ok.mp decodes
  obtain ⟨encodable, fits, rfl⟩ := encodeDocumentValue_ok.mp encodes
  rw [decodeDocumentValue_raw encodable fits] at restores
  have distinct := DocumentValue.restore_distinctKeys restores
  cases value with
  | document fields =>
      obtain rfl := Except.ok.inj isDocument
      have own := ((DocumentValue.allNodes_document _ _).mp distinct).1
      simpa [DocumentValue.hasDistinctKeys] using own
  | _ =>
      cases isDocument

/-- A message whose payload is restored comes back from its frame. -/
theorem decodeMessage_encodeMessage
    {input : MessageInput}
    {encoded : Bytes}
    (encodes : encodeMessage input = .ok encoded)
    (restores : input.Restores) :
    getFrameLength encoded = .ok encoded.length ∧
      ∃ decoded,
        decodeMessage encoded = .ok decoded ∧ input.IsReceived decoded := by
  obtain ⟨bytes, payload, payloadEncodes, payloadDecodes, same⟩ := restores
  obtain ⟨written, writes, frames⟩ := Result.bind_eq_ok.mp encodes
  obtain ⟨⟨⟩, valid, writes⟩ := Result.bind_eq_ok.mp writes
  rw [payloadEncodes] at writes
  obtain rfl := Except.ok.inj writes
  obtain ⟨leastId, mostId, leastFlags, mostFlags, fits, rfl⟩ :=
    encodeFrame_ok frames
  have header :=
    @readFrameHeader_rawHeader input.kind (input.flags.getD 0).toNat
      input.requestId.toNat bytes.length (by omega) (by omega) fits
  have read :
      readFrameHeader
          (rawFrame input.kind (input.flags.getD 0).toNat
            input.requestId.toNat bytes) =
        .ok ⟨protocolVersion, input.kind, (input.flags.getD 0).toNat,
          input.requestId.toNat, bytes.length⟩ := by
    rw [rawFrame_eq, readFrameHeader_append _ _ (by simp), header]
  have length :
      (rawFrame input.kind (input.flags.getD 0).toNat input.requestId.toNat
          bytes).length =
        frameHeaderSize + bytes.length := by
    rw [rawFrame_eq, List.length_append, length_rawHeader]
  have rest :
      (rawFrame input.kind (input.flags.getD 0).toNat input.requestId.toNat
          bytes).drop frameHeaderSize =
        bytes := by
    rw [rawFrame_eq, List.drop_left' (length_rawHeader _ _ _ _)]
  have stillValid :
      validateMessagePayload input.kind payload = .ok () := by
    rw [validateMessagePayload_agrees
      (nodup_of_decodeDocument payloadEncodes payloadDecodes) same]
    exact valid
  refine ⟨?_, ⟨protocolVersion, input.kind, (input.flags.getD 0).toNat,
    input.requestId.toNat, payload⟩, ?_, rfl, rfl, ?_, ?_, same⟩
  · unfold getFrameLength
    rw [read, length]
    rfl
  · unfold decodeMessage decodeFrame decodeMessagePayload
    rw [read]
    simp only [Result.ok_bind, length, rest, lt_irrefl, if_false, pure_bind,
      payloadDecodes, stillValid]
    rfl
  · exact Int.toNat_of_nonneg leastId
  · exact Int.toNat_of_nonneg leastFlags

end SinterDb
