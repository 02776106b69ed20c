import SinterDb.Protocol.DocumentValue

namespace SinterDb

open Unicode

/-!
# Encoding documents

`encodeDocumentValue` writes a value to a writer with a size limit.  `raw` is
the encoding without the limits, and the main lemma says when writing succeeds
and that it then appends exactly `raw`.
-/

/-- `MAX_PAYLOAD_SIZE`: 16 MiB. -/
def maxPayloadSize : Nat := 16 * 1024 * 1024

/-- `MAX_DOCUMENT_DEPTH`. -/
def maxDocumentDepth : Nat := 100

/-- `ValueTag`. -/
inductive ValueTag where
  | null
  | false
  | true
  | int32
  | int64
  | float64
  | bigInt64
  | string
  | binary
  | dateTime
  | array
  | document
  | customId
  deriving Repr, DecidableEq

/-- The byte of a tag. -/
def ValueTag.code : ValueTag → UInt8
  | .null => 0x00
  | .false => 0x01
  | .true => 0x02
  | .int32 => 0x03
  | .int64 => 0x04
  | .float64 => 0x05
  | .bigInt64 => 0x06
  | .string => 0x07
  | .binary => 0x08
  | .dateTime => 0x09
  | .array => 0x0a
  | .document => 0x0b
  | .customId => 0x0c

/-- The bytes that a `BinaryWriter` holds. -/
abbrev BinaryWriter := Bytes

/-- The error for a payload over the limit. -/
def payloadTooLarge : ProtocolError :=
  ⟨.payloadTooLarge,
    utf16 s!"Encoded payload exceeds the {maxPayloadSize}-byte limit."⟩

/-- The error for nesting over the limit. -/
def documentTooDeep : ProtocolError :=
  ⟨.documentTooDeep,
    utf16 (s!"Document nesting exceeds the maximum depth of " ++
      s!"{maxDocumentDepth}.")⟩

/-- `writeBytes`; every other write of a `BinaryWriter` has the same check. -/
def BinaryWriter.write
    (writer : BinaryWriter)
    (data : Bytes) : Except ProtocolError BinaryWriter :=
  if maxPayloadSize < writer.length + data.length then
    .error payloadTooLarge
  else
    .ok (writer ++ data)

/-- `encodeString`. -/
def encodeString (value : JsString) : Except ProtocolError Bytes :=
  if isWellFormed value then
    .ok (TextEncoder.encode value)
  else
    .error ⟨.invalidDocumentValue,
      utf16 "Strings and document keys must round-trip through UTF-8."⟩

/-- `compareBytes`. -/
def compareBytes : Bytes → Bytes → Int
  | left :: lefts, right :: rights =>
      if left = right then
        compareBytes lefts rights
      else
        (left.toNat : Int) - right.toNat
  | lefts, rights => (lefts.length : Int) - rights.length

/-- `writeLengthPrefixedBytes`. -/
def writeLengthPrefixedBytes
    (writer : BinaryWriter)
    (value : Bytes) : Except ProtocolError BinaryWriter := do
  let writer ← writer.write (BigEndian.encode 4 value.length)
  writer.write value

/-- `writeNumber`. -/
def writeNumber
    (writer : BinaryWriter)
    (value : JsNumber) : Except ProtocolError BinaryWriter := do
  if value.isNaN then
    let writer ← writer.write [ValueTag.float64.code]
    writer.write (BigEndian.encode 8 0x7ff8000000000000)
  else
    let integer :=
      if value = JsNumber.negativeZero then none else value.toInt?
    match integer with
    | some integer =>
        if -0x80000000 ≤ integer ∧ integer ≤ 0x7fffffff then
          let writer ← writer.write [ValueTag.int32.code]
          writer.write (BigEndian.encodeSigned 4 integer)
        else if value.isSafeInteger then
          let writer ← writer.write [ValueTag.int64.code]
          writer.write (BigEndian.encodeSigned 8 integer)
        else
          let writer ← writer.write [ValueTag.float64.code]
          writer.write (BigEndian.encode 8 value.toBits)
    | none =>
        let writer ← writer.write [ValueTag.float64.code]
        writer.write (BigEndian.encode 8 value.toBits)

/-- `writeBigInt`. -/
def writeBigInt
    (writer : BinaryWriter)
    (value : Int) : Except ProtocolError BinaryWriter := do
  if value < -2 ^ 63 ∨ 2 ^ 63 - 1 < value then
    throw ⟨.integerOutOfRange,
      utf16 s!"BigInt value {value} is outside the signed 64-bit range."⟩
  let writer ← writer.write [ValueTag.bigInt64.code]
  writer.write (BigEndian.encodeSigned 8 value)

/-- `writeDate`. -/
def writeDate
    (writer : BinaryWriter)
    (value : Option TimeValue) : Except ProtocolError BinaryWriter := do
  match value with
  | none =>
      throw ⟨.invalidDate, utf16 "Invalid Date values cannot be encoded."⟩
  | some time =>
      let writer ← writer.write [ValueTag.dateTime.code]
      writer.write (BigEndian.encodeSigned 8 time.milliseconds)

/-- A field of `writeDocument`: its encoded key and how to write its value. -/
structure FieldWriter where
  encodedKey : Bytes
  writeValue : Nat → BinaryWriter → Except ProtocolError BinaryWriter

/-- The order of the fields of a document. -/
def FieldWriter.precedes (left right : FieldWriter) : Prop :=
  compareBytes left.encodedKey right.encodedKey ≤ 0

instance : DecidableRel FieldWriter.precedes := fun left right =>
  inferInstanceAs
    (Decidable (compareBytes left.encodedKey right.encodedKey ≤ 0))

/-- The loop of `writeDocument` over the sorted fields. -/
def writeFields
    (depth : Nat) :
    List FieldWriter → BinaryWriter → Except ProtocolError BinaryWriter
  | [], writer => .ok writer
  | field :: rest, writer => do
      let writer ← writeLengthPrefixedBytes writer field.encodedKey
      let writer ← field.writeValue depth writer
      writeFields depth rest writer

mutual

/-- `writeValue`. -/
def writeValue
    (value : DocumentValue)
    (depth : Nat)
    (writer : BinaryWriter) : Except ProtocolError BinaryWriter :=
  if maxDocumentDepth < depth then
    .error documentTooDeep
  else
    match value with
    | .null => writer.write [ValueTag.null.code]
    | .boolean true => writer.write [ValueTag.true.code]
    | .boolean false => writer.write [ValueTag.false.code]
    | .number value => writeNumber writer value
    | .bigint value => writeBigInt writer value
    | .string value => do
        let writer ← writer.write [ValueTag.string.code]
        let encoded ← encodeString value
        writeLengthPrefixedBytes writer encoded
    | .date value => writeDate writer value
    | .binary value => do
        let writer ← writer.write [ValueTag.binary.code]
        writeLengthPrefixedBytes writer value
    | .customId id => do
        let writer ← writer.write [ValueTag.customId.code]
        writer.write id.bytes
    | .array items => do
        let writer ← writer.write [ValueTag.array.code]
        let writer ← writer.write (BigEndian.encode 4 items.length)
        writeItems items (depth + 1) writer
    | .document fields => do
        let fields ← fieldWriters fields
        let fields := fields.insertionSort FieldWriter.precedes
        let writer ← writer.write [ValueTag.document.code]
        let writer ← writer.write (BigEndian.encode 4 fields.length)
        writeFields (depth + 1) fields writer

/-- The loop of `writeArray`. -/
def writeItems
    (items : List DocumentValue)
    (depth : Nat)
    (writer : BinaryWriter) : Except ProtocolError BinaryWriter :=
  match items with
  | [] => .ok writer
  | item :: rest => do
      let writer ← writeValue item depth writer
      writeItems rest depth writer

/-- The fields of `writeDocument` with their encoded keys, not yet sorted. -/
def fieldWriters
    (fields : List (JsString × DocumentValue)) :
    Except ProtocolError (List FieldWriter) :=
  match fields with
  | [] => .ok []
  | (key, value) :: rest => do
      let encodedKey ← encodeString key
      let rest ← fieldWriters rest
      return ⟨encodedKey, writeValue value⟩ :: rest

end

/-- `encodeDocumentValue`. -/
def encodeDocumentValue (value : DocumentValue) : Except ProtocolError Bytes :=
  writeValue value 0 []

/-- `encodeDocument`. -/
def encodeDocument (document : Document) : Except ProtocolError Bytes :=
  encodeDocumentValue (.document document)

/-- The bytes of a length and the data behind it. -/
def lengthPrefixed (data : Bytes) : Bytes :=
  BigEndian.encode 4 data.length ++ data

/-- The encoding of a number. -/
def rawNumber (value : JsNumber) : Bytes :=
  if value.isNaN then
    ValueTag.float64.code :: BigEndian.encode 8 0x7ff8000000000000
  else
    let integer :=
      if value = JsNumber.negativeZero then none else value.toInt?
    match integer with
    | some integer =>
        if -0x80000000 ≤ integer ∧ integer ≤ 0x7fffffff then
          ValueTag.int32.code :: BigEndian.encodeSigned 4 integer
        else if value.isSafeInteger then
          ValueTag.int64.code :: BigEndian.encodeSigned 8 integer
        else
          ValueTag.float64.code :: BigEndian.encode 8 value.toBits
    | none => ValueTag.float64.code :: BigEndian.encode 8 value.toBits

/-- The order of encoded fields. -/
def keyPrecedes (left right : Bytes × Bytes) : Prop :=
  compareBytes left.1 right.1 ≤ 0

instance : DecidableRel keyPrecedes := fun left right =>
  inferInstanceAs (Decidable (compareBytes left.1 right.1 ≤ 0))

namespace DocumentValue

mutual

/-- The encoding of a value, without the limits. -/
def raw : DocumentValue → Bytes
  | .null => [ValueTag.null.code]
  | .boolean true => [ValueTag.true.code]
  | .boolean false => [ValueTag.false.code]
  | .number value => rawNumber value
  | .bigint value =>
      ValueTag.bigInt64.code :: BigEndian.encodeSigned 8 value
  | .string value =>
      ValueTag.string.code :: lengthPrefixed (TextEncoder.encode value)
  | .date none => []
  | .date (some time) =>
      ValueTag.dateTime.code :: BigEndian.encodeSigned 8 time.milliseconds
  | .binary value => ValueTag.binary.code :: lengthPrefixed value
  | .customId id => ValueTag.customId.code :: id.bytes
  | .array items =>
      ValueTag.array.code ::
        (BigEndian.encode 4 items.length ++ rawItems items)
  | .document fields =>
      ValueTag.document.code ::
        (BigEndian.encode 4 fields.length ++
          ((rawFields fields).insertionSort keyPrecedes).flatMap
            fun field => lengthPrefixed field.1 ++ field.2)

/-- The encodings of the items of an array. -/
def rawItems : List DocumentValue → Bytes
  | [] => []
  | item :: rest => item.raw ++ rawItems rest

/-- The encoded keys and values of a document. -/
def rawFields : List (JsString × DocumentValue) → List (Bytes × Bytes)
  | [] => []
  | (key, value) :: rest =>
      (TextEncoder.encode key, value.raw) :: rawFields rest

end

/-- The encoder accepts a value, apart from the values inside it. -/
def isWritable : DocumentValue → Bool
  | .bigint value => decide (-2 ^ 63 ≤ value ∧ value ≤ 2 ^ 63 - 1)
  | .string value => isWellFormed value
  | .date time => time.isSome
  | .document fields => fields.all fun field => isWellFormed field.1
  | _ => true

/-- The encoder accepts every value in the tree. -/
def Writable (value : DocumentValue) : Prop :=
  value.allNodes isWritable = true

end DocumentValue

/-- The order in which the fields of a document are written. -/
def fieldPrecedes (left right : JsString × DocumentValue) : Prop :=
  compareBytes (TextEncoder.encode left.1) (TextEncoder.encode right.1) ≤ 0

instance : DecidableRel fieldPrecedes := fun left right =>
  inferInstanceAs
    (Decidable (compareBytes (TextEncoder.encode left.1)
      (TextEncoder.encode right.1) ≤ 0))

/-- The fields of a document in the order in which they are written. -/
def sortFields (document : Document) : Document :=
  document.insertionSort fieldPrecedes

/-- A write appends the given data, within the size limit. -/
def Appends
    (write : BinaryWriter → Except ProtocolError BinaryWriter)
    (data : Bytes) : Prop :=
  ∀ writer, writer.length ≤ maxPayloadSize →
    write writer = BinaryWriter.write writer data

namespace Appends

/-- One write appends its data. -/
theorem write
    (data : Bytes) :
    Appends (fun writer => BinaryWriter.write writer data) data := by
  intro writer _
  rfl

/-- No write appends nothing. -/
theorem ok :
    Appends .ok [] := by
  intro writer within
  rw [BinaryWriter.write, if_neg (by simpa using within), List.append_nil]

/-- Writes in sequence append their data in sequence. -/
theorem bind
    {first second : BinaryWriter → Except ProtocolError BinaryWriter}
    {firstData secondData : Bytes}
    (firstAppends : Appends first firstData)
    (secondAppends : Appends second secondData) :
    Appends (fun writer => first writer >>= second)
      (firstData ++ secondData) := by
  intro writer within
  change first writer >>= second = _
  rw [firstAppends writer within]
  unfold BinaryWriter.write
  by_cases tooLarge : maxPayloadSize < writer.length + firstData.length
  · have stillTooLarge :
        maxPayloadSize <
          writer.length + (firstData ++ secondData).length := by
      simp only [List.length_append]
      omega
    rw [if_pos tooLarge, if_pos stillTooLarge]
    rfl
  · rw [if_neg tooLarge]
    have next :=
      secondAppends (writer ++ firstData) (by
        simp only [List.length_append]
        omega)
    simp only [BinaryWriter.write, List.length_append, List.append_assoc,
      Nat.add_assoc] at next ⊢
    exact next

/-- The same data, written in another way. -/
theorem of_eq
    {write : BinaryWriter → Except ProtocolError BinaryWriter}
    {data other : Bytes}
    (appends : Appends write data)
    (same : data = other) :
    Appends write other :=
  same ▸ appends

end Appends

/-- A length and its data are appended. -/
theorem writeLengthPrefixedBytes_appends
    (data : Bytes) :
    Appends (fun writer => writeLengthPrefixedBytes writer data)
      (lengthPrefixed data) :=
  (Appends.write _).bind (.write _)

/-- A tag and its data are appended. -/
theorem writeTagged_appends
    (tag : ValueTag)
    (data : Bytes) :
    Appends
      (fun writer => do
        let writer ← BinaryWriter.write writer [tag.code]
        BinaryWriter.write writer data)
      (tag.code :: data) :=
  (Appends.write [tag.code]).bind (.write data)

/-- A number is appended. -/
theorem writeNumber_appends
    (value : JsNumber) :
    Appends (fun writer => writeNumber writer value) (rawNumber value) := by
  unfold writeNumber rawNumber
  by_cases isNaN : value.isNaN = true
  · simp only [isNaN, if_true]
    exact writeTagged_appends _ _
  · simp only [isNaN]
    generalize (if value = JsNumber.negativeZero then none else value.toInt?) =
      integer
    cases integer with
    | none =>
        exact writeTagged_appends _ _
    | some integer =>
        by_cases isInt32 : -0x80000000 ≤ integer ∧ integer ≤ 0x7fffffff
        · simp only [isInt32]
          exact writeTagged_appends _ _
        · by_cases isSafe : value.isSafeInteger = true
          · simp only [isInt32, isSafe, if_true, if_false]
            exact writeTagged_appends _ _
          · simp only [isInt32, isSafe, if_false]
            exact writeTagged_appends _ _

/-- The encoded fields of a document, one for each field. -/
theorem rawFields_eq
    (fields : List (JsString × DocumentValue)) :
    DocumentValue.rawFields fields =
      fields.map fun field =>
        (TextEncoder.encode field.1, field.2.raw) := by
  induction fields with
  | nil =>
      rfl
  | cons field rest inductionHypothesis =>
      obtain ⟨key, value⟩ := field
      rw [DocumentValue.rawFields, inductionHypothesis, List.map_cons]

/-- The encoding of a document follows its sorted fields. -/
theorem raw_document
    (fields : List (JsString × DocumentValue)) :
    (DocumentValue.document fields).raw =
      ValueTag.document.code ::
        (BigEndian.encode 4 fields.length ++
          (sortFields fields).flatMap fun field =>
            lengthPrefixed (TextEncoder.encode field.1) ++ field.2.raw) := by
  have sorted :
      (DocumentValue.rawFields fields).insertionSort keyPrecedes =
        (sortFields fields).map fun field =>
          (TextEncoder.encode field.1, field.2.raw) := by
    rw [rawFields_eq, sortFields]
    exact (List.map_insertionSort fieldPrecedes keyPrecedes _ fields
      fun _ _ _ _ => Iff.rfl).symm
  rw [DocumentValue.raw, sorted, List.flatMap_map]

/-- The fields that a document with well-formed keys writes. -/
theorem fieldWriters_eq
    {fields : List (JsString × DocumentValue)}
    (wellFormed : ∀ field ∈ fields, isWellFormed field.1 = true) :
    fieldWriters fields =
      .ok (fields.map fun field =>
        ⟨TextEncoder.encode field.1, writeValue field.2⟩) := by
  induction fields with
  | nil =>
      rfl
  | cons field rest inductionHypothesis =>
      obtain ⟨key, value⟩ := field
      rw [List.forall_mem_cons] at wellFormed
      rw [fieldWriters, encodeString, if_pos wellFormed.1,
        inductionHypothesis wellFormed.2]
      rfl

/-- The sorted fields that a document with well-formed keys writes. -/
theorem sorted_fieldWriters
    (fields : List (JsString × DocumentValue)) :
    (fields.map fun field =>
        FieldWriter.mk (TextEncoder.encode field.1)
          (writeValue field.2)).insertionSort FieldWriter.precedes =
      (sortFields fields).map fun field =>
        ⟨TextEncoder.encode field.1, writeValue field.2⟩ :=
  (List.map_insertionSort fieldPrecedes FieldWriter.precedes _ fields
    fun _ _ _ _ => Iff.rfl).symm

/-- Sorting keeps the fields. -/
theorem sortFields_perm
    (fields : List (JsString × DocumentValue)) :
    (sortFields fields).Perm fields :=
  List.perm_insertionSort _ _

/-- Fields whose values are appended are appended. -/
theorem writeFields_appends
    {depth : Nat}
    {fields : List (JsString × DocumentValue)}
    (values :
      ∀ field ∈ fields, Appends (writeValue field.2 depth) field.2.raw) :
    Appends
      (writeFields depth
        (fields.map fun field =>
          ⟨TextEncoder.encode field.1, writeValue field.2⟩))
      (fields.flatMap fun field =>
        lengthPrefixed (TextEncoder.encode field.1) ++ field.2.raw) := by
  induction fields with
  | nil =>
      exact .ok
  | cons field rest inductionHypothesis =>
      rw [List.forall_mem_cons] at values
      rw [List.flatMap_cons, List.append_assoc]
      exact (writeLengthPrefixedBytes_appends _).bind
        (values.1.bind (inductionHypothesis values.2))

/-- Items that are appended one by one are appended. -/
theorem writeItems_appends
    {depth : Nat}
    {items : List DocumentValue}
    (values : ∀ item ∈ items, Appends (writeValue item depth) item.raw) :
    Appends (writeItems items depth) (DocumentValue.rawItems items) := by
  induction items with
  | nil =>
      exact .ok
  | cons item rest inductionHypothesis =>
      rw [List.forall_mem_cons] at values
      exact values.1.bind (inductionHypothesis values.2)

/--
A value that the encoder accepts, at a depth that leaves room for its height,
is appended within the size limit.
-/
theorem writeValue_appends
    {value : DocumentValue}
    (writable : value.Writable)
    {depth : Nat}
    (shallow : depth + value.height ≤ maxDocumentDepth) :
    Appends (writeValue value depth) value.raw := by
  induction value using DocumentValue.induction generalizing depth with
  | null =>
      intro writer within
      rw [writeValue, if_neg (by omega)]
      exact Appends.write _ writer within
  | boolean value =>
      intro writer within
      cases value with
      | false =>
          rw [writeValue, if_neg (by omega)]
          exact Appends.write _ writer within
      | true =>
          rw [writeValue, if_neg (by omega)]
          exact Appends.write _ writer within
  | number value =>
      intro writer within
      rw [writeValue, if_neg (by omega)]
      exact writeNumber_appends value writer within
  | bigint value =>
      have inRange : -2 ^ 63 ≤ value ∧ value ≤ 2 ^ 63 - 1 := by
        simpa [DocumentValue.Writable, DocumentValue.allNodes,
          DocumentValue.isWritable] using writable
      intro writer within
      rw [writeValue, if_neg (by omega)]
      simp only [writeBigInt]
      rw [if_neg (by omega)]
      exact writeTagged_appends _ _ writer within
  | string value =>
      have wellFormed : isWellFormed value = true := writable
      intro writer within
      rw [writeValue, if_neg (by omega)]
      simp only [encodeString, wellFormed, if_true]
      exact (Appends.write [ValueTag.string.code]).bind
        (writeLengthPrefixedBytes_appends _) writer within
  | date time =>
      intro writer within
      rw [writeValue, if_neg (by omega)]
      cases time with
      | none =>
          simp [DocumentValue.Writable, DocumentValue.allNodes,
            DocumentValue.isWritable] at writable
      | some time =>
          exact writeTagged_appends _ _ writer within
  | binary value =>
      intro writer within
      rw [writeValue, if_neg (by omega)]
      exact (Appends.write [ValueTag.binary.code]).bind
        (writeLengthPrefixedBytes_appends _) writer within
  | customId id =>
      intro writer within
      rw [writeValue, if_neg (by omega)]
      exact writeTagged_appends _ _ writer within
  | array items inductionHypothesis =>
      have inside := (DocumentValue.allNodes_array _ items).mp writable
      have within := DocumentValue.height_array_le.mp
        (Nat.le_sub_of_add_le' shallow)
      intro writer bound
      rw [writeValue, if_neg (by omega)]
      refine (Appends.write [ValueTag.array.code]).bind
        ((Appends.write (BigEndian.encode 4 items.length)).bind
          (writeItems_appends ?_)) writer bound
      intro item member
      apply inductionHypothesis item member (inside.2 item member)
      have := within item member
      omega
  | document fields inductionHypothesis =>
      have inside := (DocumentValue.allNodes_document _ fields).mp writable
      have within := DocumentValue.height_document_le.mp
        (Nat.le_sub_of_add_le' shallow)
      have wellFormed : ∀ field ∈ fields, isWellFormed field.1 = true := by
        simpa [DocumentValue.isWritable] using inside.1
      intro writer bound
      rw [writeValue, if_neg (by omega)]
      have count :
          ((sortFields fields).map fun field =>
            FieldWriter.mk (TextEncoder.encode field.1)
              (writeValue field.2)).length = fields.length := by
        rw [List.length_map, (sortFields_perm fields).length_eq]
      rw [raw_document]
      simp only [fieldWriters_eq wellFormed]
      change (do
        let writer ← BinaryWriter.write writer [ValueTag.document.code]
        let writer ← BinaryWriter.write writer (BigEndian.encode 4 _)
        writeFields (depth + 1) _ writer) = _
      rw [sorted_fieldWriters, count]
      refine (Appends.write [ValueTag.document.code]).bind
        ((Appends.write (BigEndian.encode 4 fields.length)).bind
          (writeFields_appends ?_)) writer bound
      intro field member
      have member := (sortFields_perm fields).mem_iff.mp member
      apply inductionHypothesis field member (inside.2 field member)
      have := within field member
      omega

/-- Fields are written only when each of their values is. -/
theorem writeFields_ok
    {depth : Nat}
    {fields : List FieldWriter}
    {writer written : BinaryWriter}
    (writes : writeFields depth fields writer = .ok written) :
    ∀ field ∈ fields, ∃ before after,
      field.writeValue depth before = .ok after := by
  induction fields generalizing writer with
  | nil =>
      simp
  | cons field rest inductionHypothesis =>
      obtain ⟨_, -, writes⟩ := Result.bind_eq_ok.mp writes
      obtain ⟨_, valueWrites, writes⟩ := Result.bind_eq_ok.mp writes
      exact List.forall_mem_cons.mpr
        ⟨⟨_, _, valueWrites⟩, inductionHypothesis writes⟩

/-- Items are written only when each of them is. -/
theorem writeItems_ok
    {depth : Nat}
    {items : List DocumentValue}
    {writer written : BinaryWriter}
    (writes : writeItems items depth writer = .ok written) :
    ∀ item ∈ items, ∃ before after,
      writeValue item depth before = .ok after := by
  induction items generalizing writer with
  | nil =>
      simp
  | cons item rest inductionHypothesis =>
      obtain ⟨_, valueWrites, writes⟩ := Result.bind_eq_ok.mp writes
      exact List.forall_mem_cons.mpr
        ⟨⟨_, _, valueWrites⟩, inductionHypothesis writes⟩

/-- Keys are encoded only when they are well formed. -/
theorem fieldWriters_ok
    {fields : List (JsString × DocumentValue)}
    {writers : List FieldWriter}
    (encodes : fieldWriters fields = .ok writers) :
    ∀ field ∈ fields, isWellFormed field.1 = true := by
  induction fields generalizing writers with
  | nil =>
      simp
  | cons field rest inductionHypothesis =>
      obtain ⟨key, value⟩ := field
      rw [fieldWriters] at encodes
      obtain ⟨_, keyEncodes, encodes⟩ := Result.bind_eq_ok.mp encodes
      obtain ⟨_, restEncodes, -⟩ := Result.bind_eq_ok.mp encodes
      refine List.forall_mem_cons.mpr ⟨?_, inductionHypothesis restEncodes⟩
      unfold encodeString at keyEncodes
      split_ifs at keyEncodes with wellFormed
      exact wellFormed

/-- What is written was acceptable and not too deep. -/
theorem writeValue_ok
    {value : DocumentValue}
    {depth : Nat}
    {writer written : BinaryWriter}
    (writes : writeValue value depth writer = .ok written) :
    value.Writable ∧ depth + value.height ≤ maxDocumentDepth := by
  have shallow : ¬ maxDocumentDepth < depth := by
    intro deep
    rw [writeValue.eq_def, if_pos deep] at writes
    cases writes
  induction value using DocumentValue.induction
    generalizing depth writer written with
  | bigint value =>
      rw [writeValue, if_neg shallow] at writes
      refine ⟨?_, by simpa [DocumentValue.height] using shallow⟩
      unfold writeBigInt at writes
      split_ifs at writes with outOfRange
      · cases writes
      · simp only [DocumentValue.Writable, DocumentValue.allNodes,
          DocumentValue.isWritable, decide_eq_true_eq]
        omega
  | string value =>
      rw [writeValue, if_neg shallow] at writes
      refine ⟨?_, by simpa [DocumentValue.height] using shallow⟩
      obtain ⟨_, -, writes⟩ := Result.bind_eq_ok.mp writes
      obtain ⟨_, encodes, -⟩ := Result.bind_eq_ok.mp writes
      unfold encodeString at encodes
      split_ifs at encodes with wellFormed
      exact wellFormed
  | date time =>
      rw [writeValue, if_neg shallow] at writes
      refine ⟨?_, by simpa [DocumentValue.height] using shallow⟩
      cases time with
      | none =>
          cases writes
      | some time =>
          rfl
  | array items inductionHypothesis =>
      rw [writeValue, if_neg shallow] at writes
      obtain ⟨_, -, writes⟩ := Result.bind_eq_ok.mp writes
      obtain ⟨_, -, writes⟩ := Result.bind_eq_ok.mp writes
      have each := writeItems_ok writes
      have inside :
          ∀ item ∈ items,
            item.Writable ∧ depth + 1 + item.height ≤ maxDocumentDepth := by
        intro item member
        obtain ⟨before, after, itemWrites⟩ := each item member
        refine inductionHypothesis item member itemWrites ?_
        intro deep
        rw [writeValue.eq_def, if_pos deep] at itemWrites
        cases itemWrites
      constructor
      · exact (DocumentValue.allNodes_array _ items).mpr
          ⟨rfl, fun item member => (inside item member).1⟩
      · have bound :
            (DocumentValue.array items).height ≤ maxDocumentDepth - depth := by
          apply DocumentValue.height_array_le.mpr
          intro item member
          have := (inside item member).2
          omega
        omega
  | document fields inductionHypothesis =>
      rw [writeValue, if_neg shallow] at writes
      obtain ⟨writers, encodes, writes⟩ := Result.bind_eq_ok.mp writes
      have wellFormed := fieldWriters_ok encodes
      obtain rfl : _ = writers :=
        Except.ok.inj ((fieldWriters_eq wellFormed).symm.trans encodes)
      obtain ⟨_, -, writes⟩ := Result.bind_eq_ok.mp writes
      obtain ⟨_, -, writes⟩ := Result.bind_eq_ok.mp writes
      have each := writeFields_ok writes
      have inside :
          ∀ field ∈ fields,
            field.2.Writable ∧
              depth + 1 + field.2.height ≤ maxDocumentDepth := by
        intro field member
        obtain ⟨before, after, fieldWrites⟩ :=
          each ⟨TextEncoder.encode field.1, writeValue field.2⟩
            ((List.mem_insertionSort _).mpr
              (List.mem_map.mpr ⟨field, member, rfl⟩))
        refine inductionHypothesis field member fieldWrites ?_
        intro deep
        simp only at fieldWrites
        rw [writeValue.eq_def, if_pos deep] at fieldWrites
        cases fieldWrites
      constructor
      · refine (DocumentValue.allNodes_document _ fields).mpr
          ⟨?_, fun field member => (inside field member).1⟩
        simpa [DocumentValue.isWritable] using wellFormed
      · have bound :
            (DocumentValue.document fields).height ≤
              maxDocumentDepth - depth := by
          apply DocumentValue.height_document_le.mpr
          intro field member
          have := (inside field member).2
          omega
        omega
  | _ =>
      exact ⟨rfl, by simpa [DocumentValue.height] using shallow⟩

/-- A value can be encoded, apart from the size limit. -/
def DocumentValue.Encodable (value : DocumentValue) : Prop :=
  value.Writable ∧ value.height ≤ maxDocumentDepth

/-- A value that can be encoded is, unless its encoding is too large. -/
theorem encodeDocumentValue_eq
    {value : DocumentValue}
    (encodable : value.Encodable) :
    encodeDocumentValue value =
      if maxPayloadSize < value.raw.length then
        .error payloadTooLarge
      else
        .ok value.raw := by
  have appends :=
    @writeValue_appends value encodable.1 0 (by simpa using encodable.2) []
      (by simp)
  simpa [encodeDocumentValue, BinaryWriter.write] using appends

/-- When encoding succeeds, and with which bytes. -/
theorem encodeDocumentValue_ok
    {value : DocumentValue}
    {bytes : Bytes} :
    encodeDocumentValue value = .ok bytes ↔
      value.Encodable ∧ value.raw.length ≤ maxPayloadSize ∧
        bytes = value.raw := by
  constructor
  · intro encodes
    have accepted := writeValue_ok encodes
    have encodable : value.Encodable := ⟨accepted.1, by simpa using accepted.2⟩
    rw [encodeDocumentValue_eq encodable] at encodes
    split_ifs at encodes with tooLarge
    exact ⟨encodable, by omega, (Except.ok.inj encodes).symm⟩
  · rintro ⟨encodable, fits, rfl⟩
    rw [encodeDocumentValue_eq encodable, if_neg (by omega)]

end SinterDb
