import SinterDb.Lib.Crc32

namespace SinterDb.Wal

open Crc32

/-!
# The segment and record format of the write-ahead log

A segment file is a 24-byte header followed by records.  A record is a 21-byte
header and a payload; the record header carries one checksum over its length,
sequence number and type, and one over the payload.  `scanRecord` tells a
whole record from the end of the file, a torn write and damage.
-/

/-- `WAL_FORMAT_VERSION`. -/
def walFormatVersion : Nat := 1

/-- `SEGMENT_MAGIC`: the bytes of `SINTWAL` and a null byte. -/
def segmentMagic : Bytes :=
  [0x53, 0x49, 0x4e, 0x54, 0x57, 0x41, 0x4c, 0x00]

/-- `SEGMENT_HEADER_SIZE`. -/
def segmentHeaderSize : Nat := 24

/-- `RECORD_HEADER_SIZE`. -/
def recordHeaderSize : Nat := 21

/-- `MAX_RECORD_PAYLOAD_SIZE`: 256 MiB. -/
def maxRecordPayloadSize : Nat := 256 * 1024 * 1024

/-- What `decodeSegmentHeader` returns. -/
inductive SegmentHeaderResult where
  | ok (firstLsn : Nat)
  | failed (reason : String)
  deriving Repr, DecidableEq

/-- What `scanRecord` returns; `atEnd` is the source's `end`. -/
inductive RecordScanResult where
  | record (lsn type : Nat) (payload : Bytes) (endOffset : Nat)
  | atEnd
  | torn (reason : String)
  | corrupt (reason : String)
  deriving Repr, DecidableEq

/-- The part of a segment header that its checksum covers. -/
def segmentHeaderFields (firstLsn : Nat) : Bytes :=
  segmentMagic ++ (BigEndian.encode 4 walFormatVersion ++
    BigEndian.encode 8 firstLsn)

/-- `encodeSegmentHeader`. -/
def encodeSegmentHeader (firstLsn : Nat) : Bytes :=
  segmentHeaderFields firstLsn ++
    BigEndian.encode 4 (crc32 (segmentHeaderFields firstLsn))

/-- `decodeSegmentHeader`. -/
def decodeSegmentHeader (bytes : Bytes) : SegmentHeaderResult :=
  if bytes.length < segmentHeaderSize then
    .failed "The segment header is incomplete."
  else if Buffer.subarray bytes 0 8 ≠ segmentMagic then
    .failed "The file is not a SinterDB log segment."
  else if Buffer.readUIntBE bytes 20 4 ≠
      crc32 (Buffer.subarray bytes 0 20) then
    .failed "The segment header checksum is invalid."
  else if Buffer.readUIntBE bytes 8 4 ≠ walFormatVersion then
    .failed (s!"The segment uses unsupported log format version " ++
      s!"{Buffer.readUIntBE bytes 8 4}.")
  else
    .ok (Buffer.readUIntBE bytes 12 8)

/-- The part of a record header that the header checksum covers. -/
def recordFields (lsn type length : Nat) : Bytes :=
  BigEndian.encode 4 length ++
    (BigEndian.encode 8 lsn ++ BigEndian.encode 1 type)

/-- The bytes of a record whose type, payload and number are in range. -/
def recordBytes (lsn type : Nat) (payload : Bytes) : Bytes :=
  BigEndian.encode 4 (crc32 (recordFields lsn type payload.length)) ++
    (recordFields lsn type payload.length ++
      (BigEndian.encode 4 (crc32 payload) ++ payload))

/-- A `RangeError` thrown by the encoder. -/
structure RangeError where
  message : String
  deriving Repr, DecidableEq

/--
`encodeRecord`.  Writing the sequence number throws once it needs more than
64 bits.
-/
def encodeRecord
    (lsn : Nat)
    (type : Int)
    (payload : Bytes) : Except RangeError Bytes :=
  if type < 0 ∨ 255 < type then
    .error ⟨"Record type must be an integer from 0 to 255."⟩
  else if maxRecordPayloadSize < payload.length then
    .error ⟨"Record payload exceeds the maximum record size."⟩
  else if 2 ^ 64 ≤ lsn then
    .error ⟨"The value is out of range."⟩
  else
    .ok (recordBytes lsn type.toNat payload)

/-- `isZeroFilled`. -/
def isZeroFilled (bytes : Bytes) : Bool :=
  bytes.all fun byte => byte == 0

/--
`scanRecord`.  The source addresses the whole buffer; here every read is
relative to the bytes from `offset` on.
-/
def scanRecord
    (bytes : Bytes)
    (offset expectedLsn : Nat) : RecordScanResult :=
  let size := bytes.length
  if offset = size then
    .atEnd
  else
    let buffer := bytes.drop offset
    if size - offset < recordHeaderSize then
      .torn "The log ends inside a record header."
    else if isZeroFilled buffer then
      .torn "The log ends with unwritten zero bytes."
    else if Buffer.readUIntBE buffer 0 4 ≠
        crc32 (Buffer.subarray buffer 4 17) then
      .corrupt "The record header checksum is invalid."
    else
      let length := Buffer.readUIntBE buffer 4 4
      let lsn := Buffer.readUIntBE buffer 8 8
      let type := Buffer.readUIntBE buffer 16 1
      if lsn ≠ expectedLsn then
        .corrupt (s!"Expected log sequence number {expectedLsn} " ++
          s!"but found {lsn}.")
      else if maxRecordPayloadSize < length then
        .corrupt (s!"The record length {length} exceeds the maximum " ++
          "record size.")
      else
        let endOffset := offset + recordHeaderSize + length
        if size < endOffset then
          .torn "The log ends inside a record payload."
        else
          let payload :=
            Buffer.subarray buffer recordHeaderSize
              (recordHeaderSize + length)
          if Buffer.readUIntBE buffer 17 4 ≠ crc32 payload then
            if endOffset = size then
              .torn "The record payload checksum is invalid."
            else
              .corrupt "The record payload checksum is invalid."
          else
            .record lsn type payload endOffset

@[simp] theorem length_segmentMagic : segmentMagic.length = 8 := rfl

@[simp] theorem length_segmentHeaderFields
    (firstLsn : Nat) :
    (segmentHeaderFields firstLsn).length = 20 := by
  simp [segmentHeaderFields]

@[simp] theorem length_encodeSegmentHeader
    (firstLsn : Nat) :
    (encodeSegmentHeader firstLsn).length = segmentHeaderSize := by
  simp [encodeSegmentHeader, segmentHeaderSize]

@[simp] theorem length_recordFields
    (lsn type length : Nat) :
    (recordFields lsn type length).length = 13 := by
  simp [recordFields]

@[simp] theorem length_recordBytes
    (lsn type : Nat)
    (payload : Bytes) :
    (recordBytes lsn type payload).length =
      recordHeaderSize + payload.length := by
  simp [recordBytes, recordHeaderSize]
  omega

/-- The header of a segment is read back, whatever follows it. -/
theorem decodeSegmentHeader_encode
    {firstLsn : Nat}
    (inRange : firstLsn < 2 ^ 64)
    (records : Bytes) :
    decodeSegmentHeader (encodeSegmentHeader firstLsn ++ records) =
      .ok firstLsn := by
  generalize shape : encodeSegmentHeader firstLsn ++ records = bytes
  have longEnough : ¬ bytes.length < segmentHeaderSize := by
    simp [← shape]
  have covered :
      Buffer.subarray bytes 0 20 = segmentHeaderFields firstLsn := by
    simpa [← shape, encodeSegmentHeader] using
      Buffer.subarray_front (segmentHeaderFields firstLsn)
        (BigEndian.encode 4 (crc32 (segmentHeaderFields firstLsn)) ++ records)
  have checksum :
      Buffer.readUIntBE bytes 20 4 =
        crc32 (segmentHeaderFields firstLsn) := by
    rw [← shape, encodeSegmentHeader, List.append_assoc,
      Buffer.readUIntBE_middle _ _ _ (length_segmentHeaderFields firstLsn)
        (BigEndian.length_encode 4 _),
      BigEndian.decode_encode_of_lt (crc32_lt _)]
  have fields :
      bytes =
        segmentMagic ++ (BigEndian.encode 4 walFormatVersion ++
          (BigEndian.encode 8 firstLsn ++
            (BigEndian.encode 4 (crc32 (segmentHeaderFields firstLsn)) ++
              records))) := by
    simp [← shape, encodeSegmentHeader, segmentHeaderFields]
  have magic : Buffer.subarray bytes 0 8 = segmentMagic := by
    rw [fields]
    exact Buffer.subarray_front segmentMagic _
  have version : Buffer.readUIntBE bytes 8 4 = walFormatVersion := by
    rw [fields,
      Buffer.readUIntBE_middle _ _ _ length_segmentMagic
        (BigEndian.length_encode 4 _),
      BigEndian.decode_encode_of_lt (by decide)]
  have number : Buffer.readUIntBE bytes 12 8 = firstLsn := by
    have prefixWidth :
        (segmentMagic ++ BigEndian.encode 4 walFormatVersion).length = 12 := by
      simp
    rw [fields, ← List.append_assoc,
      Buffer.readUIntBE_middle _ _ _ prefixWidth
        (BigEndian.length_encode 8 _),
      BigEndian.decode_encode_of_lt (by simpa using inRange)]
  simp [decodeSegmentHeader, longEnough, magic, covered, checksum, version,
    number]

/-- A header whose checksum does not match its fields is rejected. -/
theorem decodeSegmentHeader_mismatch
    (fields checksum records : Bytes)
    (fieldsWidth : fields.length = 20)
    (checksumWidth : checksum.length = 4)
    (mismatch : BigEndian.decode checksum ≠ crc32 fields) :
    ∃ reason,
      decodeSegmentHeader (fields ++ (checksum ++ records)) =
        .failed reason := by
  have covered :
      Buffer.subarray (fields ++ (checksum ++ records)) 0 20 = fields := by
    rw [← fieldsWidth]
    exact Buffer.subarray_front fields _
  have stored :
      Buffer.readUIntBE (fields ++ (checksum ++ records)) 20 4 =
        BigEndian.decode checksum :=
    Buffer.readUIntBE_middle _ _ _ fieldsWidth checksumWidth
  unfold decodeSegmentHeader
  rw [covered, stored]
  split_ifs <;> exact ⟨_, rfl⟩

/-- A one-byte change of a segment header is always rejected. -/
theorem decodeSegmentHeader_changed
    {firstLsn : Nat}
    {changed : Bytes}
    (change :
      Buffer.OneByteChanged (encodeSegmentHeader firstLsn) changed)
    (records : Bytes) :
    ∃ reason,
      decodeSegmentHeader (changed ++ records) = .failed reason := by
  rcases change.append_cases with
      ⟨fields, fieldsChange, rfl⟩ | ⟨checksum, checksumChange, rfl⟩
  · rw [List.append_assoc]
    apply decodeSegmentHeader_mismatch
    · simp [fieldsChange.length_eq]
    · simp
    · rw [BigEndian.decode_encode_of_lt (crc32_lt _)]
      exact (crc32_ne fieldsChange).symm
  · have width : checksum.length = 4 := by
      simp [checksumChange.length_eq]
    rw [List.append_assoc]
    apply decodeSegmentHeader_mismatch
    · simp
    · exact width
    · intro same
      apply checksumChange.ne
      rw [← same, ← width, BigEndian.encode_decode]

/-- The three numbers that the header checksum covers are read back. -/
theorem recordFields_read
    {lsn type length : Nat}
    (lsnInRange : lsn < 2 ^ 64)
    (typeInRange : type < 256)
    (lengthInRange : length < 2 ^ 32)
    (before after : Bytes)
    (startsAt : before.length = 4) :
    let buffer := before ++ (recordFields lsn type length ++ after)
    Buffer.readUIntBE buffer 4 4 = length ∧
      Buffer.readUIntBE buffer 8 8 = lsn ∧
      Buffer.readUIntBE buffer 16 1 = type := by
  refine ⟨?_, ?_, ?_⟩
  · rw [recordFields, List.append_assoc,
      Buffer.readUIntBE_middle _ _ _ startsAt (BigEndian.length_encode 4 _),
      BigEndian.decode_encode_of_lt (by simpa using lengthInRange)]
  · have prefixWidth :
        (before ++ BigEndian.encode 4 length).length = 8 := by
      simp [startsAt]
    rw [recordFields, List.append_assoc, List.append_assoc,
      ← List.append_assoc before,
      Buffer.readUIntBE_middle _ _ _ prefixWidth
        (BigEndian.length_encode 8 _),
      BigEndian.decode_encode_of_lt (by simpa using lsnInRange)]
  · have prefixWidth :
        ((before ++ BigEndian.encode 4 length) ++
          BigEndian.encode 8 lsn).length = 16 := by
      simp [startsAt]
    rw [recordFields, List.append_assoc, List.append_assoc,
      ← List.append_assoc before, ← List.append_assoc (before ++ _),
      Buffer.readUIntBE_middle _ _ _ prefixWidth
        (BigEndian.length_encode 1 _),
      BigEndian.decode_encode_of_lt (by simpa using typeInRange)]

/-- Zero-filled bytes write the number zero. -/
theorem decode_of_isZeroFilled
    {bytes : Bytes}
    (zeros : isZeroFilled bytes = true) :
    BigEndian.decode bytes = 0 := by
  induction bytes using List.reverseRecOn with
  | nil =>
      rfl
  | append_singleton rest byte inductionHypothesis =>
      simp only [isZeroFilled, List.all_append, List.all_cons, List.all_nil,
        Bool.and_true, Bool.and_eq_true, beq_iff_eq] at zeros
      rw [BigEndian.decode_concat, inductionHypothesis zeros.1, zeros.2]
      rfl

/-- A part of zero-filled bytes is zero-filled. -/
theorem isZeroFilled_append
    (first second : Bytes) :
    isZeroFilled (first ++ second) =
      (isZeroFilled first && isZeroFilled second) := by
  simp [isZeroFilled]

/-- A record with a positive sequence number is never zero-filled. -/
theorem isZeroFilled_recordFields
    {lsn type length : Nat}
    (positive : 0 < lsn)
    (lsnInRange : lsn < 2 ^ 64) :
    isZeroFilled (recordFields lsn type length) = false := by
  rw [Bool.eq_false_iff]
  intro zeros
  simp only [recordFields, isZeroFilled_append, Bool.and_eq_true] at zeros
  have number := decode_of_isZeroFilled zeros.2.1
  rw [BigEndian.decode_encode_of_lt (by simpa using lsnInRange)] at number
  omega

/-- Scanning from the end of the file. -/
theorem scanRecord_atEnd
    (bytes : Bytes)
    (expectedLsn : Nat) :
    scanRecord bytes bytes.length expectedLsn = .atEnd := by
  simp [scanRecord]

/--
Scanning a file whose next bytes have the shape of a record: a stored header
checksum, thirteen covered bytes, a stored payload checksum and the rest.
-/
theorem scanRecord_parts
    (before checksum fields payloadChecksum rest : Bytes)
    (expectedLsn : Nat)
    (checksumWidth : checksum.length = 4)
    (fieldsWidth : fields.length = 13)
    (payloadChecksumWidth : payloadChecksum.length = 4) :
    let buffer := checksum ++ (fields ++ (payloadChecksum ++ rest))
    let length := Buffer.readUIntBE buffer 4 4
    scanRecord (before ++ buffer) before.length expectedLsn =
      if isZeroFilled buffer then
        .torn "The log ends with unwritten zero bytes."
      else if BigEndian.decode checksum ≠ crc32 fields then
        .corrupt "The record header checksum is invalid."
      else if Buffer.readUIntBE buffer 8 8 ≠ expectedLsn then
        .corrupt (s!"Expected log sequence number {expectedLsn} " ++
          s!"but found {Buffer.readUIntBE buffer 8 8}.")
      else if maxRecordPayloadSize < length then
        .corrupt (s!"The record length {length} exceeds the maximum " ++
          "record size.")
      else if rest.length < length then
        .torn "The log ends inside a record payload."
      else if BigEndian.decode payloadChecksum ≠ crc32 (rest.take length) then
        if rest.length = length then
          .torn "The record payload checksum is invalid."
        else
          .corrupt "The record payload checksum is invalid."
      else
        .record (Buffer.readUIntBE buffer 8 8) (Buffer.readUIntBE buffer 16 1)
          (rest.take length) (before.length + recordHeaderSize + length) := by
  intro buffer length
  have bufferLength : buffer.length = recordHeaderSize + rest.length := by
    simp [buffer, checksumWidth, fieldsWidth, payloadChecksumWidth,
      recordHeaderSize]
    omega
  have dropped : (before ++ buffer).drop before.length = buffer := by
    simp
  have notAtEnd : ¬ before.length = (before ++ buffer).length := by
    simp [bufferLength, recordHeaderSize]
  have longEnough :
      ¬ (before ++ buffer).length - before.length < recordHeaderSize := by
    simp [bufferLength]
  have stored :
      Buffer.readUIntBE buffer 0 4 = BigEndian.decode checksum :=
    Buffer.readUIntBE_middle [] checksum _ rfl checksumWidth
  have covered : Buffer.subarray buffer 4 17 = fields :=
    Buffer.subarray_middle checksum fields _ checksumWidth (by omega)
  have payloadStored :
      Buffer.readUIntBE buffer 17 4 = BigEndian.decode payloadChecksum := by
    have prefixWidth : (checksum ++ fields).length = 17 := by
      simp [checksumWidth, fieldsWidth]
    rw [← Buffer.readUIntBE_middle (checksum ++ fields) payloadChecksum rest
      prefixWidth payloadChecksumWidth]
    simp [buffer]
  have payload :
      Buffer.subarray buffer recordHeaderSize (recordHeaderSize + length) =
        rest.take length := by
    have prefixWidth :
        (checksum ++ (fields ++ payloadChecksum)).length =
          recordHeaderSize := by
      simp [checksumWidth, fieldsWidth, payloadChecksumWidth,
        recordHeaderSize]
    have regrouped :
        buffer = (checksum ++ (fields ++ payloadChecksum)) ++ rest := by
      simp [buffer]
    simp [Buffer.subarray, regrouped, ← prefixWidth]
  have beyond :
      (before ++ buffer).length < before.length + recordHeaderSize + length ↔
        rest.length < length := by
    rw [List.length_append, bufferLength]
    omega
  have exactEnd :
      before.length + recordHeaderSize + length = (before ++ buffer).length ↔
        rest.length = length := by
    rw [List.length_append, bufferLength]
    omega
  unfold scanRecord
  simp only [dropped, notAtEnd, longEnough, stored, covered, payloadStored,
    if_false]
  simp only [show Buffer.readUIntBE buffer 4 4 = length from rfl, payload,
    beyond, exactEnd]

/-- The ranges that `encodeRecord` enforces on what it writes. -/
structure RecordInRange (lsn type : Nat) (payload : Bytes) : Prop where
  positive : 0 < lsn
  lsnInRange : lsn < 2 ^ 64
  typeInRange : type < 256
  payloadInRange : payload.length ≤ maxRecordPayloadSize

/-- What `encodeRecord` returns is a record in range. -/
theorem encodeRecord_ok
    {lsn : Nat}
    {type : Int}
    {payload record : Bytes}
    (positive : 0 < lsn)
    (encoded : encodeRecord lsn type payload = .ok record) :
    RecordInRange lsn type.toNat payload ∧
      record = recordBytes lsn type.toNat payload := by
  unfold encodeRecord at encoded
  split_ifs at encoded with badType badPayload badLsn
  refine ⟨⟨positive, by omega, by omega, by omega⟩, ?_⟩
  exact (Except.ok.inj encoded).symm

/-- A whole record is read back, whatever precedes and follows it. -/
theorem scanRecord_whole
    {lsn type : Nat}
    {payload : Bytes}
    (inRange : RecordInRange lsn type payload)
    (before after : Bytes) :
    scanRecord (before ++ (recordBytes lsn type payload ++ after))
        before.length lsn =
      .record lsn type payload
        (before.length + (recordBytes lsn type payload).length) := by
  have lengthInRange : payload.length < 2 ^ 32 := by
    have bound := inRange.payloadInRange
    unfold maxRecordPayloadSize at bound
    omega
  have fields :=
    recordFields_read inRange.lsnInRange inRange.typeInRange lengthInRange
      (BigEndian.encode 4 (crc32 (recordFields lsn type payload.length)))
      (BigEndian.encode 4 (crc32 payload) ++ (payload ++ after))
      (BigEndian.length_encode 4 _)
  have parts :=
    scanRecord_parts before
      (BigEndian.encode 4 (crc32 (recordFields lsn type payload.length)))
      (recordFields lsn type payload.length)
      (BigEndian.encode 4 (crc32 payload))
      (payload ++ after) lsn
      (BigEndian.length_encode 4 _) (length_recordFields _ _ _)
      (BigEndian.length_encode 4 _)
  have notTooLong := Nat.not_lt.mpr inRange.payloadInRange
  simp only [fields.1, fields.2.1, fields.2.2, isZeroFilled_append,
    isZeroFilled_recordFields inRange.positive inRange.lsnInRange,
    BigEndian.decode_encode_of_lt (crc32_lt _), List.take_left,
    notTooLong, Bool.false_and, Bool.and_false] at parts
  simp only [recordBytes, List.append_assoc]
  rw [parts]
  simp [recordHeaderSize]
  omega

/-- Fewer bytes than a record header hold are a torn write. -/
theorem scanRecord_short
    {rest : Bytes}
    (nonempty : rest ≠ [])
    (short : rest.length < recordHeaderSize)
    (before : Bytes)
    (expectedLsn : Nat) :
    ∃ reason,
      scanRecord (before ++ rest) before.length expectedLsn =
        .torn reason := by
  have notAtEnd : ¬ before.length = (before ++ rest).length := by
    simp [nonempty]
  have tooShort :
      (before ++ rest).length - before.length < recordHeaderSize := by
    simpa using short
  refine ⟨"The log ends inside a record header.", ?_⟩
  simp only [scanRecord, notAtEnd, tooShort, if_true, if_false]

/-- A tail of zero bytes is the end of the file or a torn write. -/
theorem scanRecord_zeros
    (count : Nat)
    (before : Bytes)
    (expectedLsn : Nat) :
    (count = 0 ∧
        scanRecord (before ++ List.replicate count 0) before.length
          expectedLsn = .atEnd) ∨
      ∃ reason,
        scanRecord (before ++ List.replicate count 0) before.length
          expectedLsn = .torn reason := by
  cases count with
  | zero =>
      left
      simpa using scanRecord_atEnd before expectedLsn
  | succ count =>
      right
      by_cases short : count + 1 < recordHeaderSize
      · exact scanRecord_short (by simp [List.replicate_succ])
          (by simpa using short) before expectedLsn
      · have zeros :
            isZeroFilled (List.replicate (count + 1) (0 : UInt8)) = true := by
          simp [isZeroFilled]
        have notShort :
            ¬ (before ++ List.replicate (count + 1) (0 : UInt8)).length -
              before.length < recordHeaderSize := by
          simpa using short
        refine ⟨"The log ends with unwritten zero bytes.", ?_⟩
        simp only [scanRecord, List.drop_left, zeros, notShort, if_true,
          if_false]
        simp

/-- A record cut inside its header or its payload is a torn write. -/
theorem scanRecord_cut
    {lsn type : Nat}
    {payload : Bytes}
    (inRange : RecordInRange lsn type payload)
    {cut : Nat}
    (nonempty : 0 < cut)
    (inside : cut < (recordBytes lsn type payload).length)
    (before : Bytes) :
    ∃ reason,
      scanRecord (before ++ (recordBytes lsn type payload).take cut)
        before.length lsn = .torn reason := by
  by_cases short : cut < recordHeaderSize
  · apply scanRecord_short
    · intro empty
      have lengths := congrArg List.length empty
      simp only [List.length_take, List.length_nil] at lengths
      omega
    · simp only [List.length_take]
      omega
  · have lengthInRange : payload.length < 2 ^ 32 := by
      have bound := inRange.payloadInRange
      unfold maxRecordPayloadSize at bound
      omega
    rw [length_recordBytes] at inside
    have kept :
        (recordBytes lsn type payload).take cut =
          BigEndian.encode 4 (crc32 (recordFields lsn type payload.length)) ++
            (recordFields lsn type payload.length ++
              (BigEndian.encode 4 (crc32 payload) ++
                payload.take (cut - recordHeaderSize))) := by
      unfold recordHeaderSize at short ⊢
      simp only [recordBytes, List.take_append, BigEndian.length_encode,
        length_recordFields]
      rw [List.take_of_length_le (by simp; omega),
        List.take_of_length_le (by simp; omega),
        List.take_of_length_le (by simp; omega)]
      congr 4
    have fields :=
      recordFields_read inRange.lsnInRange inRange.typeInRange lengthInRange
        (BigEndian.encode 4 (crc32 (recordFields lsn type payload.length)))
        (BigEndian.encode 4 (crc32 payload) ++
          payload.take (cut - recordHeaderSize))
        (BigEndian.length_encode 4 _)
    have parts :=
      scanRecord_parts before
        (BigEndian.encode 4 (crc32 (recordFields lsn type payload.length)))
        (recordFields lsn type payload.length)
        (BigEndian.encode 4 (crc32 payload))
        (payload.take (cut - recordHeaderSize)) lsn
        (BigEndian.length_encode 4 _) (length_recordFields _ _ _)
        (BigEndian.length_encode 4 _)
    have notTooLong := Nat.not_lt.mpr inRange.payloadInRange
    have missing :
        (payload.take (cut - recordHeaderSize)).length < payload.length := by
      simp only [List.length_take]
      omega
    simp only [fields.1, fields.2.1, isZeroFilled_append,
      isZeroFilled_recordFields inRange.positive inRange.lsnInRange,
      BigEndian.decode_encode_of_lt (crc32_lt _), notTooLong, missing,
      Bool.false_and, Bool.and_false] at parts
    refine ⟨"The log ends inside a record payload.", ?_⟩
    rw [kept, parts]
    simp

/-- The outcomes that keep `scanRecord` from passing over changed bytes. -/
def Stops (after : Bytes) (result : RecordScanResult) : Prop :=
  (∃ reason, result = .corrupt reason) ∨
    (after = [] ∧ ∃ reason, result = .torn reason)

/--
A one-byte change of a record never goes unnoticed: scanning stops there with
damage, or with a torn write when the record is the last thing in the file.
-/
theorem scanRecord_changed
    {lsn type : Nat}
    {payload changed : Bytes}
    (inRange : RecordInRange lsn type payload)
    (change : Buffer.OneByteChanged (recordBytes lsn type payload) changed)
    (before after : Bytes)
    (afterNonzero : after ≠ [] → isZeroFilled after = false) :
    Stops after
      (scanRecord (before ++ (changed ++ after)) before.length lsn) := by
  have lengthInRange : payload.length < 2 ^ 32 := by
    have bound := inRange.payloadInRange
    unfold maxRecordPayloadSize at bound
    omega
  -- Zero bytes up to the end of the file leave no room for a later record.
  have zeroTail : isZeroFilled after = true → after = [] := by
    intro zeros
    by_contra nonempty
    rw [afterNonzero nonempty] at zeros
    exact Bool.false_ne_true zeros
  rcases change.append_cases with
      ⟨checksum, checksumChange, rfl⟩ | ⟨covered, coveredChange, rfl⟩
  · have width : checksum.length = 4 := by
      simp [checksumChange.length_eq]
    have mismatch :
        BigEndian.decode checksum ≠
          crc32 (recordFields lsn type payload.length) := by
      intro same
      apply checksumChange.ne
      rw [← same, ← width, BigEndian.encode_decode]
    have parts :=
      scanRecord_parts before checksum
        (recordFields lsn type payload.length)
        (BigEndian.encode 4 (crc32 payload)) (payload ++ after) lsn width
        (length_recordFields _ _ _) (BigEndian.length_encode 4 _)
    simp only [List.append_assoc]
    rw [parts]
    split_ifs with zeros
    · right
      simp only [isZeroFilled_append, Bool.and_eq_true] at zeros
      exact ⟨zeroTail zeros.2.2.2.2, _, rfl⟩
    · left
      exact ⟨_, rfl⟩
  · rcases coveredChange.append_cases with
        ⟨fields, fieldsChange, rfl⟩ | ⟨tail, tailChange, rfl⟩
    · have width : fields.length = 13 := by
        simp [fieldsChange.length_eq]
      have mismatch := (crc32_ne fieldsChange).symm
      have parts :=
        scanRecord_parts before
          (BigEndian.encode 4 (crc32 (recordFields lsn type payload.length)))
          fields (BigEndian.encode 4 (crc32 payload)) (payload ++ after) lsn
          (BigEndian.length_encode 4 _) width (BigEndian.length_encode 4 _)
      simp only [BigEndian.decode_encode_of_lt (crc32_lt _)] at parts
      simp only [List.append_assoc]
      rw [parts]
      split_ifs with zeros
      · right
        simp only [isZeroFilled_append, Bool.and_eq_true] at zeros
        exact ⟨zeroTail zeros.2.2.2.2, _, rfl⟩
      · left
        exact ⟨_, rfl⟩
    · have fields :=
        fun rest =>
          recordFields_read inRange.lsnInRange inRange.typeInRange
            lengthInRange
            (BigEndian.encode 4
              (crc32 (recordFields lsn type payload.length)))
            rest (BigEndian.length_encode 4 _)
      have notTooLong := Nat.not_lt.mpr inRange.payloadInRange
      obtain ⟨checksum, body, tailShape, checksumWidth, bodyLength,
          mismatch⟩ :
          ∃ checksum body,
            tail = checksum ++ body ∧ checksum.length = 4 ∧
              body.length = payload.length ∧
              BigEndian.decode checksum ≠ crc32 body := by
        rcases tailChange.append_cases with
            ⟨checksum, checksumChange, rfl⟩ | ⟨body, bodyChange, rfl⟩
        · have width : checksum.length = 4 := by
            simp [checksumChange.length_eq]
          refine ⟨checksum, payload, rfl, width, rfl, ?_⟩
          intro same
          apply checksumChange.ne
          rw [← same, ← width, BigEndian.encode_decode]
        · refine ⟨_, body, rfl, BigEndian.length_encode 4 _,
            bodyChange.length_eq, ?_⟩
          rw [BigEndian.decode_encode_of_lt (crc32_lt _)]
          exact (crc32_ne bodyChange).symm
      subst tailShape
      have parts :=
        scanRecord_parts before
          (BigEndian.encode 4 (crc32 (recordFields lsn type payload.length)))
          (recordFields lsn type payload.length) checksum (body ++ after) lsn
          (BigEndian.length_encode 4 _) (length_recordFields _ _ _)
          checksumWidth
      have present : ¬ (body ++ after).length < payload.length := by
        simp [bodyLength]
      have taken : (body ++ after).take payload.length = body := by
        rw [← bodyLength]
        exact List.take_left
      simp only [(fields _).1, (fields _).2.1, isZeroFilled_append,
        isZeroFilled_recordFields inRange.positive inRange.lsnInRange,
        BigEndian.decode_encode_of_lt (crc32_lt _), notTooLong, present,
        taken, Bool.false_and, Bool.and_false] at parts
      simp only [List.append_assoc]
      rw [parts]
      simp only [Bool.false_eq_true, ne_eq, not_true_eq_false, if_false]
      rw [if_pos mismatch]
      split_ifs with exactEnd
      · right
        refine ⟨?_, _, rfl⟩
        simpa [bodyLength] using exactEnd
      · left
        exact ⟨_, rfl⟩

end SinterDb.Wal
