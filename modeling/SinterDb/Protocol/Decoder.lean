import SinterDb.Protocol.Encoder

namespace SinterDb

open Unicode

/-!
# Decoding documents

`decodeDocumentValue` reads one value and rejects what is left over.  A reader
is the bytes that are still to be read; the levels of nesting that remain stand
for the depth of the source, which counts up to the limit.
-/

/-- The bytes that a `BinaryReader` has not read yet. -/
abbrev BinaryReader := Bytes

/-- `readBytes`; the other reads check their size in the same way. -/
def BinaryReader.readBytes
    (reader : BinaryReader)
    (length : Nat) : Except ProtocolError (Bytes × BinaryReader) :=
  if reader.length < length then
    .error ⟨.unexpectedEnd,
      utf16 (s!"Encoded value requires {length} bytes but only " ++
        s!"{reader.length} remain.")⟩
  else
    .ok (reader.take length, reader.drop length)

/-- `readUint32`. -/
def BinaryReader.readUint32
    (reader : BinaryReader) :
    Except ProtocolError (Nat × BinaryReader) := do
  let (bytes, reader) ← reader.readBytes 4
  return (BigEndian.decode bytes, reader)

/-- `readInt32` and `readBigInt64`. -/
def BinaryReader.readSigned
    (reader : BinaryReader)
    (width : Nat) : Except ProtocolError (Int × BinaryReader) := do
  let (bytes, reader) ← reader.readBytes width
  return (BigEndian.decodeSigned bytes, reader)

/-- The tag of a byte. -/
def ValueTag.ofCode? (code : UInt8) : Option ValueTag :=
  [ValueTag.null, .false, .true, .int32, .int64, .float64, .bigInt64,
    .string, .binary, .dateTime, .array, .document, .customId].find?
    fun tag => tag.code == code

/-- `readLengthPrefixedBytes`. -/
def readLengthPrefixedBytes
    (reader : BinaryReader) :
    Except ProtocolError (Bytes × BinaryReader) := do
  let (length, reader) ← reader.readUint32
  reader.readBytes length

/-- `readString`. -/
def readString
    (reader : BinaryReader) :
    Except ProtocolError (JsString × BinaryReader) := do
  let (bytes, reader) ← readLengthPrefixedBytes reader
  match TextDecoder.decode bytes with
  | some text => return (text, reader)
  | none =>
      throw ⟨.invalidUtf8,
        utf16 "Encoded string does not contain valid UTF-8."⟩

/-- `readInt64`. -/
def readInt64
    (reader : BinaryReader) :
    Except ProtocolError (JsNumber × BinaryReader) := do
  let (value, reader) ← reader.readSigned 8
  if value < -(2 ^ 53 - 1) ∨ 2 ^ 53 - 1 < value then
    throw ⟨.integerOutOfRange,
      utf16 (s!"Int64 value {value} cannot be represented safely as a " ++
        "JavaScript number.")⟩
  return (JsNumber.ofInt value, reader)

/-- `readDate`. -/
def readDate
    (reader : BinaryReader) :
    Except ProtocolError (TimeValue × BinaryReader) := do
  let (milliseconds, reader) ← reader.readSigned 8
  match timeClip milliseconds with
  | some time => return (time, reader)
  | none =>
      throw ⟨.invalidDate,
        utf16 (s!"Date value {milliseconds} is outside the supported " ++
          "range.")⟩

/-- `readArray`, given how to read an item. -/
def readItems
    (readItem :
      BinaryReader → Except ProtocolError (DocumentValue × BinaryReader)) :
    Nat → BinaryReader →
      Except ProtocolError (List DocumentValue × BinaryReader)
  | 0, reader => .ok ([], reader)
  | count + 1, reader => do
      let (item, reader) ← readItem reader
      let (rest, reader) ← readItems readItem count reader
      return (item :: rest, reader)

/-- The error for a key that a document already has. -/
def duplicateDocumentKey (key : JsString) : ProtocolError :=
  ⟨.duplicateDocumentKey,
    utf16 "Document contains the duplicate key \"" ++ key ++ utf16 "\"."⟩

/-- `readDocument`, given how to read a value and the fields so far. -/
def readFields
    (readItem :
      BinaryReader → Except ProtocolError (DocumentValue × BinaryReader)) :
    Nat → Document → BinaryReader →
      Except ProtocolError (Document × BinaryReader)
  | 0, document, reader => .ok (document, reader)
  | count + 1, document, reader => do
      let (key, reader) ← readString reader
      if Document.hasOwn document key then
        throw (duplicateDocumentKey key)
      let (value, reader) ← readItem reader
      readFields readItem count (Document.define document key value) reader

/-- `readValue`, with the levels of nesting that remain. -/
def readValue :
    Nat → BinaryReader →
      Except ProtocolError (DocumentValue × BinaryReader)
  | 0, _ => .error documentTooDeep
  | levels + 1, reader => do
      let (bytes, reader) ← reader.readBytes 1
      let tag := bytes.headD 0
      match ValueTag.ofCode? tag with
      | some .null => return (.null, reader)
      | some .false => return (.boolean false, reader)
      | some .true => return (.boolean true, reader)
      | some .int32 =>
          let (value, reader) ← reader.readSigned 4
          return (.number (JsNumber.ofInt value), reader)
      | some .int64 =>
          let (value, reader) ← readInt64 reader
          return (.number value, reader)
      | some .float64 =>
          let (bytes, reader) ← reader.readBytes 8
          return (.number (JsNumber.ofBits (BigEndian.decode bytes)), reader)
      | some .bigInt64 =>
          let (value, reader) ← reader.readSigned 8
          return (.bigint value, reader)
      | some .string =>
          let (value, reader) ← readString reader
          return (.string value, reader)
      | some .binary =>
          let (value, reader) ← readLengthPrefixedBytes reader
          return (.binary value, reader)
      | some .dateTime =>
          let (time, reader) ← readDate reader
          return (.date (some time), reader)
      | some .customId =>
          let (bytes, reader) ← reader.readBytes customIdByteLength
          if length_eq : bytes.length = customIdByteLength then
            return (.customId ⟨bytes, length_eq⟩, reader)
          else
            -- `readBytes` returned as many bytes as were asked for.
            throw ⟨.invalidPayload,
              utf16 "CustomId must contain exactly 16 bytes."⟩
      | some .array =>
          let (count, reader) ← reader.readUint32
          let (items, reader) ← readItems (readValue levels) count reader
          return (.array items, reader)
      | some .document =>
          let (count, reader) ← reader.readUint32
          let (fields, reader) ←
            readFields (readValue levels) count [] reader
          return (.document fields, reader)
      | none =>
          throw ⟨.unknownValueTag,
            utf16 s!"Unknown document value tag {tag.toNat}."⟩

/-- `decodeDocumentValue`. -/
def decodeDocumentValue
    (payload : Bytes) : Except ProtocolError DocumentValue := do
  if maxPayloadSize < payload.length then
    throw payloadTooLarge
  let (value, reader) ← readValue (maxDocumentDepth + 1) payload
  if reader.length ≠ 0 then
    throw ⟨.trailingData,
      utf16 (s!"Encoded value contains {reader.length} unexpected " ++
        "trailing bytes.")⟩
  return value

/-- `decodeDocument`. -/
def decodeDocument (payload : Bytes) : Except ProtocolError Document := do
  match ← decodeDocumentValue payload with
  | .document fields => return fields
  | _ =>
      throw ⟨.invalidDocumentValue,
        utf16 "Encoded payload does not contain a top-level document."⟩

end SinterDb
