import SinterDb.Protocol.Decoder

namespace SinterDb

open Unicode

/-!
# Decoding what was encoded

Decoding an encoded value gives the value with its fields in the order of
their keys, with one exception: the decoder drops a byte order mark at the
start of every string and key.  `restore` says exactly what comes back.
-/

/-- One field of a document as the decoder meets it. -/
structure RestoredField where
  encodedKey : Bytes
  key : JsString
  value : Except ProtocolError DocumentValue

/-- The order in which the decoder meets the fields. -/
def RestoredField.precedes (left right : RestoredField) : Prop :=
  compareBytes left.encodedKey right.encodedKey ≤ 0

instance : DecidableRel RestoredField.precedes := fun left right =>
  inferInstanceAs
    (Decidable (compareBytes left.encodedKey right.encodedKey ≤ 0))

/-- The document that the decoder builds from fields in order. -/
def defineAll :
    List RestoredField → Document → Except ProtocolError Document
  | [], document => .ok document
  | field :: rest, document =>
      if Document.hasOwn document field.key then
        .error (duplicateDocumentKey field.key)
      else do
        let value ← field.value
        defineAll rest (Document.define document field.key value)

namespace DocumentValue

mutual

/-- What the decoder makes of an encoded value. -/
def restore : DocumentValue → Except ProtocolError DocumentValue
  | .string value => .ok (.string (stripBom value))
  | .array items => do
      let items ← restoreItems items
      return .array items
  | .document fields => do
      let fields ←
        defineAll
          ((restoreFields fields).insertionSort RestoredField.precedes) []
      return .document fields
  | value => .ok value

/-- What the decoder makes of the items of an array. -/
def restoreItems :
    List DocumentValue → Except ProtocolError (List DocumentValue)
  | [] => .ok []
  | item :: rest => do
      let item ← item.restore
      let rest ← restoreItems rest
      return item :: rest

/-- What the decoder makes of the fields of a document. -/
def restoreFields : List (JsString × DocumentValue) → List RestoredField
  | [] => []
  | (key, value) :: rest =>
      ⟨TextEncoder.encode key, stripBom key, value.restore⟩ ::
        restoreFields rest

end

/-- The field that the decoder meets for a field. -/
def restoreField (field : JsString × DocumentValue) : RestoredField :=
  ⟨TextEncoder.encode field.1, stripBom field.1, field.2.restore⟩

/-- The decoder meets the fields in the order in which they were written. -/
theorem restore_document
    (fields : List (JsString × DocumentValue)) :
    (DocumentValue.document fields).restore = (do
      let fields ← defineAll ((sortFields fields).map restoreField) []
      return .document fields) := by
  have shape : restoreFields fields = fields.map restoreField := by
    induction fields with
    | nil =>
        rfl
    | cons field rest inductionHypothesis =>
        obtain ⟨key, value⟩ := field
        rw [restoreFields, inductionHypothesis, List.map_cons, restoreField]
  have sorted :
      (fields.map restoreField).insertionSort RestoredField.precedes =
        (sortFields fields).map restoreField :=
    (List.map_insertionSort fieldPrecedes RestoredField.precedes
      restoreField fields fun _ _ _ _ => Iff.rfl).symm
  rw [restore, shape, sorted]

end DocumentValue

/-- Reading exactly the bytes in front. -/
theorem readBytes_append
    (data rest : Bytes)
    {length : Nat}
    (width : data.length = length) :
    BinaryReader.readBytes (data ++ rest) length = .ok (data, rest) := by
  subst width
  rw [BinaryReader.readBytes, if_neg (by simp)]
  simp

/-- Reading a count that fits in 32 bits. -/
theorem readUint32_encode
    {count : Nat}
    (fits : count < 2 ^ 32)
    (rest : Bytes) :
    BinaryReader.readUint32 (BigEndian.encode 4 count ++ rest) =
      .ok (count, rest) := by
  have decoded : BigEndian.decode (BigEndian.encode 4 count) = count :=
    BigEndian.decode_encode_of_lt (by simpa using fits)
  rw [BinaryReader.readUint32,
    readBytes_append _ rest (BigEndian.length_encode 4 count)]
  simp only [Result.ok_bind, decoded]
  rfl

/-- Reading a signed number that fits. -/
theorem readSigned_encode
    {width : Nat}
    {value : Int}
    (lower : -((256 ^ width : Nat) : Int) ≤ 2 * value)
    (upper : 2 * value < ((256 ^ width : Nat) : Int))
    (rest : Bytes) :
    BinaryReader.readSigned (BigEndian.encodeSigned width value ++ rest)
      width = .ok (value, rest) := by
  rw [BinaryReader.readSigned,
    readBytes_append _ rest (BigEndian.length_encodeSigned width value)]
  simp only [Result.ok_bind,
    BigEndian.decodeSigned_encodeSigned lower upper]
  rfl

/-- Reading data behind its length. -/
theorem readLengthPrefixedBytes_append
    {data : Bytes}
    (fits : data.length < 2 ^ 32)
    (rest : Bytes) :
    readLengthPrefixedBytes (lengthPrefixed data ++ rest) =
      .ok (data, rest) := by
  rw [readLengthPrefixedBytes, lengthPrefixed, List.append_assoc,
    readUint32_encode fits]
  exact readBytes_append data rest rfl

/-- Reading a string drops a leading byte order mark. -/
theorem readString_append
    {text : JsString}
    (wellFormed : isWellFormed text = true)
    (fits : (TextEncoder.encode text).length < 2 ^ 32)
    (rest : Bytes) :
    readString (lengthPrefixed (TextEncoder.encode text) ++ rest) =
      .ok (stripBom text, rest) := by
  rw [readString, readLengthPrefixedBytes_append fits]
  simp only [Result.ok_bind, decode_encode wellFormed]
  rfl

/-- The byte of a tag is read as the tag. -/
theorem ofCode_code
    (tag : ValueTag) :
    ValueTag.ofCode? tag.code = some tag := by
  cases tag <;> decide

/-- Reading the byte of a tag. -/
theorem readBytes_tag
    (tag : UInt8)
    (rest : Bytes) :
    BinaryReader.readBytes (tag :: rest) 1 = .ok ([tag], rest) :=
  readBytes_append [tag] rest rfl

/-- A number is read back. -/
theorem readValue_rawNumber
    (value : JsNumber)
    (levels : Nat)
    (rest : Bytes) :
    readValue (levels + 1) (rawNumber value ++ rest) =
      .ok (.number value, rest) := by
  have float :
      ∀ bits, bits < 2 ^ 64 →
        readValue (levels + 1)
            ((ValueTag.float64.code :: BigEndian.encode 8 bits) ++ rest) =
          .ok (.number (JsNumber.ofBits bits), rest) := by
    intro bits fits
    have decoded : BigEndian.decode (BigEndian.encode 8 bits) = bits :=
      BigEndian.decode_encode_of_lt (by simpa using fits)
    simp only [readValue, List.cons_append, readBytes_tag, Result.ok_bind,
      List.headD_cons, ofCode_code,
      readBytes_append _ rest (BigEndian.length_encode 8 bits), decoded]
    rfl
  have floatSelf :
      readValue (levels + 1)
          ((ValueTag.float64.code :: BigEndian.encode 8 value.toBits) ++
            rest) =
        .ok (.number value, rest) := by
    rw [float _ value.toBits_lt, JsNumber.ofBits_toBits]
  unfold rawNumber
  by_cases isNaN : value.isNaN = true
  · have same : value = .nan := by
      cases value <;> simp_all [JsNumber.isNaN]
    rw [if_pos isNaN, float _ (by norm_num), same]
    rfl
  · rw [if_neg isNaN]
    by_cases isNegativeZero : value = JsNumber.negativeZero
    · simpa only [if_pos isNegativeZero] using floatSelf
    · simp only [if_neg isNegativeZero]
      cases integral : value.toInt? with
      | none =>
          exact floatSelf
      | some integer =>
          have rebuilt := JsNumber.ofInt_toInt integral isNegativeZero
          by_cases isInt32 : -0x80000000 ≤ integer ∧ integer ≤ 0x7fffffff
          · simp only [if_pos isInt32, readValue, List.cons_append,
              readBytes_tag, Result.ok_bind, List.headD_cons, ofCode_code]
            rw [readSigned_encode (by norm_num; omega) (by norm_num; omega)]
            simp only [Result.ok_bind, rebuilt]
            rfl
          · by_cases isSafe : value.isSafeInteger = true
            · have safe :
                  -(2 ^ 53 - 1) ≤ integer ∧ integer ≤ 2 ^ 53 - 1 := by
                simpa [JsNumber.isSafeInteger, integral] using isSafe
              simp only [if_neg isInt32, if_pos isSafe, readValue,
                List.cons_append, readBytes_tag, Result.ok_bind,
                List.headD_cons, ofCode_code, readInt64]
              rw [readSigned_encode (by norm_num; omega) (by norm_num; omega)]
              simp only [Result.ok_bind]
              rw [if_neg (by omega)]
              simp only [pure_bind, rebuilt]
              rfl
            · simpa only [if_neg isInt32, if_neg isSafe] using floatSelf

/-- The encoding of an accepted value is not empty. -/
theorem raw_pos
    {value : DocumentValue}
    (writable : value.Writable) :
    0 < value.raw.length := by
  cases value with
  | boolean value =>
      cases value <;> simp [DocumentValue.raw]
  | number value =>
      simp only [DocumentValue.raw, rawNumber]
      generalize
        (if value = JsNumber.negativeZero then none else value.toInt?) =
          integer
      cases integer with
      | none =>
          split_ifs <;> simp
      | some integer =>
          dsimp only
          split_ifs <;> simp
  | date time =>
      cases time with
      | none =>
          simp [DocumentValue.Writable, DocumentValue.allNodes,
            DocumentValue.isWritable] at writable
      | some time =>
          simp [DocumentValue.raw]
  | _ =>
      simp [DocumentValue.raw]

/-- Every item of an array takes part of its encoding. -/
theorem length_rawItems
    {items : List DocumentValue}
    (writable : ∀ item ∈ items, item.Writable) :
    items.length ≤ (DocumentValue.rawItems items).length ∧
      ∀ item ∈ items,
        item.raw.length ≤ (DocumentValue.rawItems items).length := by
  induction items with
  | nil =>
      simp
  | cons item rest inductionHypothesis =>
      rw [List.forall_mem_cons] at writable
      have positive := raw_pos writable.1
      have later := inductionHypothesis writable.2
      simp only [DocumentValue.rawItems, List.length_cons,
        List.length_append, List.forall_mem_cons]
      refine ⟨by omega, by omega, ?_⟩
      intro other member
      have := later.2 other member
      omega

/-- The bytes of one field. -/
def rawField (field : JsString × DocumentValue) : Bytes :=
  lengthPrefixed (TextEncoder.encode field.1) ++ field.2.raw

/-- Every field of a document takes part of its encoding. -/
theorem length_rawFields
    (fields : List (JsString × DocumentValue)) :
    fields.length ≤ (fields.flatMap rawField).length ∧
      ∀ field ∈ fields,
        (TextEncoder.encode field.1).length ≤
            (fields.flatMap rawField).length ∧
          field.2.raw.length ≤ (fields.flatMap rawField).length := by
  induction fields with
  | nil =>
      simp
  | cons field rest inductionHypothesis =>
      simp only [List.flatMap_cons, List.length_cons, List.length_append,
        List.forall_mem_cons, rawField, lengthPrefixed,
        BigEndian.length_encode]
      refine ⟨by omega, ⟨by omega, by omega⟩, ?_⟩
      intro other member
      have := inductionHypothesis.2 other member
      omega

/-- Reading items gives back what each of them becomes. -/
theorem readItems_raw
    {readItem :
      BinaryReader → Except ProtocolError (DocumentValue × BinaryReader)}
    {items : List DocumentValue}
    (reads :
      ∀ item ∈ items, ∀ rest,
        readItem (item.raw ++ rest) = (item.restore).map (·, rest))
    (rest : Bytes) :
    readItems readItem items.length
        (DocumentValue.rawItems items ++ rest) =
      (DocumentValue.restoreItems items).map (·, rest) := by
  induction items with
  | nil =>
      rfl
  | cons item others inductionHypothesis =>
      rw [List.forall_mem_cons] at reads
      rw [List.length_cons, readItems, DocumentValue.rawItems,
        List.append_assoc, reads.1, DocumentValue.restoreItems]
      cases item.restore with
      | error error =>
          rfl
      | ok restored =>
          simp only [Except.map, Result.ok_bind,
            inductionHypothesis reads.2]
          cases DocumentValue.restoreItems others <;> rfl

/-- Reading fields builds the document that they define. -/
theorem readFields_raw
    {readItem :
      BinaryReader → Except ProtocolError (DocumentValue × BinaryReader)}
    {fields : List (JsString × DocumentValue)}
    (reads :
      ∀ field ∈ fields, ∀ rest,
        readItem (field.2.raw ++ rest) = (field.2.restore).map (·, rest))
    (keys :
      ∀ field ∈ fields,
        isWellFormed field.1 = true ∧
          (TextEncoder.encode field.1).length < 2 ^ 32)
    (document : Document)
    (rest : Bytes) :
    readFields readItem fields.length document
        (fields.flatMap rawField ++ rest) =
      (defineAll (fields.map DocumentValue.restoreField) document).map
        (·, rest) := by
  induction fields generalizing document with
  | nil =>
      rfl
  | cons field others inductionHypothesis =>
      rw [List.forall_mem_cons] at reads keys
      have later := inductionHypothesis reads.2 keys.2
      rw [List.length_cons, readFields, List.flatMap_cons, rawField,
        List.append_assoc, List.append_assoc,
        readString_append keys.1.1 keys.1.2, List.map_cons,
        DocumentValue.restoreField, defineAll]
      simp only [Result.ok_bind]
      by_cases duplicate :
          Document.hasOwn document (stripBom field.1) = true
      · rw [if_pos duplicate, if_pos duplicate]
        rfl
      · rw [if_neg duplicate, if_neg duplicate]
        simp only [reads.1]
        cases field.2.restore with
        | error error =>
            rfl
        | ok restored =>
            simp only [Except.map, Result.ok_bind]
            exact later _

/-- Reading an encoded value gives what it becomes, and leaves the rest. -/
theorem readValue_raw
    {value : DocumentValue}
    (writable : value.Writable)
    {levels : Nat}
    (shallow : value.height ≤ levels)
    (small : value.raw.length < 2 ^ 32)
    (rest : Bytes) :
    readValue (levels + 1) (value.raw ++ rest) = value.restore.map (·, rest) := by
  induction value using DocumentValue.induction
    generalizing levels rest with
  | null =>
      rfl
  | boolean value =>
      cases value <;> rfl
  | number value =>
      exact readValue_rawNumber value levels rest
  | bigint value =>
      have inRange : -2 ^ 63 ≤ value ∧ value ≤ 2 ^ 63 - 1 := by
        simpa [DocumentValue.Writable, DocumentValue.allNodes,
          DocumentValue.isWritable] using writable
      simp only [readValue, DocumentValue.raw, List.cons_append,
        readBytes_tag, Result.ok_bind, List.headD_cons, ofCode_code]
      rw [readSigned_encode (by norm_num; omega) (by norm_num; omega)]
      rfl
  | string value =>
      have fits : (TextEncoder.encode value).length < 2 ^ 32 := by
        simp only [DocumentValue.raw, lengthPrefixed, List.length_cons,
          List.length_append, BigEndian.length_encode] at small
        omega
      simp only [readValue, DocumentValue.raw, List.cons_append,
        readBytes_tag, Result.ok_bind, List.headD_cons, ofCode_code]
      rw [readString_append writable fits]
      rfl
  | date time =>
      cases time with
      | none =>
          simp [DocumentValue.Writable, DocumentValue.allNodes,
            DocumentValue.isWritable] at writable
      | some time =>
          have inRange := time.inRange
          unfold maxTime at inRange
          have clipped : timeClip time.milliseconds = some time := by
            simp [timeClip, time.inRange]
          simp only [readValue, DocumentValue.raw, List.cons_append,
            readBytes_tag, Result.ok_bind, List.headD_cons, ofCode_code,
            readDate]
          rw [readSigned_encode (by norm_num; omega) (by norm_num; omega)]
          simp only [Result.ok_bind, clipped]
          rfl
  | binary value =>
      have fits : value.length < 2 ^ 32 := by
        simp only [DocumentValue.raw, lengthPrefixed, List.length_cons,
          List.length_append, BigEndian.length_encode] at small
        omega
      simp only [readValue, DocumentValue.raw, List.cons_append,
        readBytes_tag, Result.ok_bind, List.headD_cons, ofCode_code]
      rw [readLengthPrefixedBytes_append fits]
      rfl
  | customId id =>
      simp only [readValue, DocumentValue.raw, List.cons_append,
        readBytes_tag, Result.ok_bind, List.headD_cons, ofCode_code,
        readBytes_append id.bytes rest id.length_eq, id.length_eq, dif_pos]
      rfl
  | array items inductionHypothesis =>
      have inside := (DocumentValue.allNodes_array _ items).mp writable
      have heights :=
        DocumentValue.height_array_le.mp shallow
      have lengths := length_rawItems inside.2
      simp only [DocumentValue.raw, List.length_cons, List.length_append,
        BigEndian.length_encode] at small
      have items' :=
        @readItems_raw (readValue levels) items (by
          intro item member rest
          have height := heights item member
          have length := lengths.2 item member
          obtain ⟨next, rfl⟩ : ∃ next, levels = next + 1 :=
            ⟨levels - 1, by omega⟩
          exact inductionHypothesis item member (inside.2 item member)
            (by omega) (by omega) rest) rest
      simp only [readValue, DocumentValue.raw, List.cons_append,
        readBytes_tag, Result.ok_bind, List.headD_cons, ofCode_code,
        List.append_assoc]
      rw [readUint32_encode (by omega), DocumentValue.restore]
      simp only [Result.ok_bind, items']
      cases DocumentValue.restoreItems items <;> rfl
  | document fields inductionHypothesis =>
      have inside := (DocumentValue.allNodes_document _ fields).mp writable
      have heights :=
        DocumentValue.height_document_le.mp shallow
      have sorted := sortFields_perm fields
      have lengths := length_rawFields (sortFields fields)
      have wellFormed : ∀ field ∈ fields, isWellFormed field.1 = true := by
        simpa [DocumentValue.isWritable] using inside.1
      have shape := raw_document fields
      change (DocumentValue.document fields).raw =
        ValueTag.document.code ::
          (BigEndian.encode 4 fields.length ++
            (sortFields fields).flatMap rawField) at shape
      rw [shape] at small ⊢
      simp only [List.length_cons, List.length_append,
        BigEndian.length_encode] at small
      have fields' :=
        @readFields_raw (readValue levels) (sortFields fields) (by
          intro field member rest
          have length := (lengths.2 field member).2
          have member := sorted.mem_iff.mp member
          have height := heights field member
          obtain ⟨next, rfl⟩ : ∃ next, levels = next + 1 :=
            ⟨levels - 1, by omega⟩
          exact inductionHypothesis field member (inside.2 field member)
            (by omega) (by omega) rest) (by
          intro field member
          have length := (lengths.2 field member).1
          exact ⟨wellFormed field (sorted.mem_iff.mp member), by omega⟩)
          [] rest
      rw [sorted.length_eq] at fields' lengths
      simp only [readValue, List.cons_append, readBytes_tag, Result.ok_bind,
        List.headD_cons, ofCode_code, List.append_assoc]
      rw [readUint32_encode (by omega), DocumentValue.restore_document]
      simp only [Result.ok_bind, fields']
      cases defineAll ((sortFields fields).map DocumentValue.restoreField)
        [] <;> rfl

/-- What decoding an encoded value gives. -/
theorem decodeDocumentValue_raw
    {value : DocumentValue}
    (encodable : value.Encodable)
    (fits : value.raw.length ≤ maxPayloadSize) :
    decodeDocumentValue value.raw = value.restore := by
  have height := encodable.2
  have small : value.raw.length < 2 ^ 32 := by
    unfold maxPayloadSize at fits
    omega
  have reads :=
    @readValue_raw value encodable.1 maxDocumentDepth height small []
  rw [List.append_nil] at reads
  unfold decodeDocumentValue
  rw [if_neg (by omega), reads]
  cases value.restore <;> rfl

namespace DocumentValue

mutual

/--
Two values are equal: the same type and content everywhere, and the same keys
with equal values in whatever order.
-/
def SameValue : DocumentValue → DocumentValue → Prop
  | .array left, .array right => SameItems left right
  | .document left, .document right =>
      (left.map Prod.fst).Perm (right.map Prod.fst) ∧
        SameFields left right
  | left, right => left = right

/-- Two lists of values are equal item by item. -/
def SameItems : List DocumentValue → List DocumentValue → Prop
  | [], [] => True
  | left :: lefts, right :: rights =>
      left.SameValue right ∧ SameItems lefts rights
  | _, _ => False

/-- Every field has an equal one among the fields on the right. -/
def SameFields : List (JsString × DocumentValue) → Document → Prop
  | [], _ => True
  | (key, value) :: rest, right =>
      (∃ other, (key, other) ∈ right ∧ value.SameValue other) ∧
        SameFields rest right

end

mutual

/-- The code units of all strings and keys in a value. -/
def textLength : DocumentValue → Nat
  | .string value => value.length
  | .array items => textLengthOfItems items
  | .document fields => textLengthOfFields fields
  | _ => 0

/-- The code units of all strings and keys in a list of values. -/
def textLengthOfItems : List DocumentValue → Nat
  | [] => 0
  | item :: rest => item.textLength + textLengthOfItems rest

/-- The code units of all strings and keys in a list of fields. -/
def textLengthOfFields : List (JsString × DocumentValue) → Nat
  | [] => 0
  | (key, value) :: rest =>
      key.length + value.textLength + textLengthOfFields rest

end

/-- The text of one field. -/
def fieldTextLength (field : JsString × DocumentValue) : Nat :=
  field.1.length + field.2.textLength

/-- A value holds no string or key of its own with a byte order mark in
front. -/
def isUnmarked : DocumentValue → Bool
  | .string value => !startsWithBom value
  | .document fields => fields.all fun field => !startsWithBom field.1
  | _ => true

/-- No string and no key in the tree starts with a byte order mark. -/
def Unmarked (value : DocumentValue) : Prop :=
  value.allNodes isUnmarked = true

instance (value : DocumentValue) : Decidable value.Unmarked :=
  inferInstanceAs (Decidable (_ = true))

/-- Fields are equal when each of them has an equal one on the right. -/
theorem sameFields_iff_forall
    (left : List (JsString × DocumentValue))
    (right : Document) :
    SameFields left right ↔
      ∀ field ∈ left, ∃ other,
        (field.1, other) ∈ right ∧ field.2.SameValue other := by
  induction left with
  | nil =>
      simp [SameFields]
  | cons field rest inductionHypothesis =>
      obtain ⟨key, value⟩ := field
      rw [SameFields, inductionHypothesis, List.forall_mem_cons]

/-- The text of a list of fields is the sum over its fields. -/
theorem textLengthOfFields_eq
    (fields : List (JsString × DocumentValue)) :
    textLengthOfFields fields = (fields.map fieldTextLength).sum := by
  induction fields with
  | nil =>
      rfl
  | cons field rest inductionHypothesis =>
      obtain ⟨key, value⟩ := field
      rw [textLengthOfFields, inductionHypothesis, List.map_cons,
        List.sum_cons, fieldTextLength]

/-- Equal documents have the same text when equal values do. -/
theorem textLengthOfFields_same
    {left right : Document}
    (leftDistinct : (left.map Prod.fst).Nodup)
    (keys : (left.map Prod.fst).Perm (right.map Prod.fst))
    (values :
      ∀ field ∈ left, ∃ other,
        (field.1, other) ∈ right ∧ field.2.textLength = other.textLength) :
    textLengthOfFields left = textLengthOfFields right := by
  have reordered :=
    Lists.perm_map_of_keys fieldTextLength leftDistinct keys fun field member => by
      obtain ⟨other, inRight, same⟩ := values field member
      exact ⟨other, inRight, by simp [fieldTextLength, same]⟩
  rw [textLengthOfFields_eq, textLengthOfFields_eq, reordered.sum_eq]

/-- Equal values have the same text. -/
theorem SameValue.textLength_eq
    {left right : DocumentValue}
    (distinct : left.DistinctKeys)
    (same : left.SameValue right) :
    left.textLength = right.textLength := by
  induction left using DocumentValue.induction generalizing right with
  | array items inductionHypothesis =>
      have inside := (allNodes_array _ items).mp distinct
      cases right with
      | array others =>
          simp only [SameValue] at same
          simp only [textLength]
          clear distinct
          induction items generalizing others with
          | nil =>
              cases others with
              | nil => rfl
              | cons => simp [SameItems] at same
          | cons item rest itemsHypothesis =>
              cases others with
              | nil =>
                  simp [SameItems] at same
              | cons other others =>
                  rw [List.forall_mem_cons] at inductionHypothesis
                  rw [List.forall_mem_cons] at inside
                  simp only [SameItems] at same
                  simp only [textLengthOfItems]
                  rw [inductionHypothesis.1 inside.2.1 same.1,
                    itemsHypothesis inductionHypothesis.2
                      ⟨rfl, inside.2.2⟩ _ same.2]
      | _ =>
          simp [SameValue] at same
  | document fields inductionHypothesis =>
      have inside := (allNodes_document _ fields).mp distinct
      cases right with
      | document others =>
          obtain ⟨keys, values⟩ := same
          rw [sameFields_iff_forall] at values
          refine textLengthOfFields_same
            (by simpa [hasDistinctKeys] using inside.1) keys ?_
          intro field member
          obtain ⟨other, inRight, same⟩ := values field member
          exact ⟨other, inRight,
            inductionHypothesis field member (inside.2 field member) same⟩
      | _ =>
          simp [SameValue] at same
  | _ =>
      simp only [SameValue] at same
      rw [same]

end DocumentValue

/-- Defining a property adds exactly that property. -/
theorem define_perm
    (document : Document)
    (key : JsString)
    (value : DocumentValue) :
    (Document.define document key value).Perm
      (document ++ [(key, value)]) := by
  unfold Document.define
  split
  · exact List.Perm.refl _
  · rename_i index _
    have parts :=
      List.takeWhile_append_dropWhile (p := precedesIndex index)
        (l := document)
    calc
      document.takeWhile (precedesIndex index) ++
            (key, value) :: document.dropWhile (precedesIndex index)
          |>.Perm
            ((key, value) ::
              (document.takeWhile (precedesIndex index) ++
                document.dropWhile (precedesIndex index))) :=
        List.perm_middle
      _ = (key, value) :: document := by rw [parts]
      _ |>.Perm (document ++ [(key, value)]) :=
        (List.perm_append_singleton _ _).symm

/-- An object has a key when one of its fields does. -/
theorem hasOwn_iff
    (document : Document)
    (key : JsString) :
    Document.hasOwn document key = true ↔
      key ∈ document.map Prod.fst := by
  simp [Document.hasOwn]

/-- A field and what the decoder makes of it. -/
def RestoresTo (field result : JsString × DocumentValue) : Prop :=
  result.1 = stripBom field.1 ∧ field.2.restore = .ok result.2

/-- A document that the decoder builds holds what each field becomes. -/
theorem defineAll_ok
    {fields document built : Document}
    (distinct : (document.map Prod.fst).Nodup)
    (defines :
      defineAll (fields.map DocumentValue.restoreField) document =
        .ok built) :
    (built.map Prod.fst).Nodup ∧
      ∃ restored,
        List.Forall₂ RestoresTo fields restored ∧
          built.Perm (document ++ restored) := by
  induction fields generalizing document with
  | nil =>
      obtain rfl := Except.ok.inj defines
      exact ⟨distinct, [], .nil, by simp⟩
  | cons field rest inductionHypothesis =>
      rw [List.map_cons, DocumentValue.restoreField, defineAll] at defines
      split_ifs at defines with duplicate
      obtain ⟨value, restores, defines⟩ := Result.bind_eq_ok.mp defines
      have added := define_perm document (stripBom field.1) value
      have stillDistinct :
          ((Document.define document (stripBom field.1) value).map
            Prod.fst).Nodup := by
        rw [(added.map Prod.fst).nodup_iff, List.map_append,
          List.nodup_append]
        rw [hasOwn_iff] at duplicate
        refine ⟨distinct, by simp, ?_⟩
        intro key inDocument other isNew same
        simp only [List.map_cons, List.map_nil, List.mem_singleton] at isNew
        rw [same, isNew] at inDocument
        exact duplicate inDocument
      obtain ⟨builtDistinct, restored, results, reordered⟩ :=
        inductionHypothesis stillDistinct defines
      refine ⟨builtDistinct, (stripBom field.1, value) :: restored,
        .cons ⟨rfl, restores⟩ results, ?_⟩
      calc
        built.Perm
            (Document.define document (stripBom field.1) value ++
              restored) := reordered
        _ |>.Perm ((document ++ [(stripBom field.1, value)]) ++ restored) :=
          added.append_right restored
        _ = document ++ (stripBom field.1, value) :: restored := by simp

/-- The keys of restored fields are the stripped ones. -/
theorem keys_restored
    {fields restored : Document}
    (results : List.Forall₂ RestoresTo fields restored) :
    restored.map Prod.fst = fields.map fun field => stripBom field.1 := by
  induction results with
  | nil =>
      rfl
  | cons head tail inductionHypothesis =>
      rw [List.map_cons, List.map_cons, head.1, inductionHypothesis]

/-- Fields with different keys, each of which can be restored, can all be
defined. -/
theorem defineAll_distinct
    {fields document : Document}
    (restores : ∀ field ∈ fields, ∃ value, field.2.restore = .ok value)
    (distinct :
      (document.map Prod.fst ++
        fields.map fun field => stripBom field.1).Nodup) :
    ∃ built,
      defineAll (fields.map DocumentValue.restoreField) document =
        .ok built := by
  induction fields generalizing document with
  | nil =>
      exact ⟨document, rfl⟩
  | cons field rest inductionHypothesis =>
      rw [List.forall_mem_cons] at restores
      obtain ⟨⟨value, restored⟩, restores⟩ := restores
      have fresh :
          ¬ Document.hasOwn document (stripBom field.1) = true := by
        rw [hasOwn_iff]
        intro member
        have separate := (List.nodup_append.mp distinct).2.2
        exact separate _ member _ (by simp) rfl
      have added := define_perm document (stripBom field.1) value
      obtain ⟨built, defines⟩ :=
        @inductionHypothesis
          (Document.define document (stripBom field.1) value) restores (by
            have keys :
                ((Document.define document (stripBom field.1) value).map
                    Prod.fst ++
                  rest.map fun field => stripBom field.1).Perm
                  (document.map Prod.fst ++
                    (field :: rest).map fun field => stripBom field.1) := by
              refine ((added.map Prod.fst).append_right _).trans ?_
              simp
            exact keys.nodup_iff.mpr distinct)
      refine ⟨built, ?_⟩
      rw [List.map_cons, DocumentValue.restoreField, defineAll,
        if_neg fresh, restored]
      exact defines

namespace DocumentValue

/-- The items of an array are restored one by one. -/
theorem restoreItems_ok
    {items restored : List DocumentValue} :
    restoreItems items = .ok restored ↔
      List.Forall₂ (fun item result => item.restore = .ok result)
        items restored := by
  induction items generalizing restored with
  | nil =>
      simp [restoreItems, eq_comm]
  | cons item rest inductionHypothesis =>
      rw [restoreItems, List.forall₂_cons_left_iff]
      constructor
      · intro restores
        obtain ⟨result, itemRestores, restores⟩ :=
          Result.bind_eq_ok.mp restores
        obtain ⟨results, restRestores, same⟩ := Result.bind_eq_ok.mp restores
        exact ⟨result, results, itemRestores,
          inductionHypothesis.mp restRestores, (Except.ok.inj same).symm⟩
      · rintro ⟨result, results, itemRestores, restRestores, rfl⟩
        rw [itemRestores, inductionHypothesis.mpr restRestores]
        rfl

/-- What the decoder builds for a document. -/
theorem restore_document_ok
    {fields : List (JsString × DocumentValue)}
    {result : DocumentValue}
    (restores : (DocumentValue.document fields).restore = .ok result) :
    ∃ built restored,
      result = .document built ∧ (built.map Prod.fst).Nodup ∧
        List.Forall₂ RestoresTo (sortFields fields) restored ∧
        built.Perm restored := by
  rw [restore_document] at restores
  obtain ⟨built, defines, same⟩ := Result.bind_eq_ok.mp restores
  obtain ⟨distinct, restored, results, reordered⟩ :=
    defineAll_ok (by simp) defines
  exact ⟨built, restored, (Except.ok.inj same).symm, distinct, results,
    by simpa using reordered⟩

/-- No two keys of an object are the same. -/
theorem restore_distinctKeys
    {value result : DocumentValue}
    (restores : value.restore = .ok result) :
    result.DistinctKeys := by
  induction value using DocumentValue.induction generalizing result with
  | array items inductionHypothesis =>
      rw [restore] at restores
      obtain ⟨restored, itemsRestore, same⟩ := Result.bind_eq_ok.mp restores
      obtain rfl := Except.ok.inj same
      refine (allNodes_array _ _).mpr ⟨rfl, ?_⟩
      intro item member
      obtain ⟨original, inItems, itemRestores⟩ :=
        Lists.exists_of_mem_right (restoreItems_ok.mp itemsRestore) member
      exact inductionHypothesis original inItems itemRestores
  | document fields inductionHypothesis =>
      obtain ⟨built, restored, rfl, distinct, results, reordered⟩ :=
        restore_document_ok restores
      refine (allNodes_document _ _).mpr
        ⟨by simpa [hasDistinctKeys] using distinct, ?_⟩
      intro field member
      obtain ⟨original, inFields, -, valueRestores⟩ :=
        Lists.exists_of_mem_right results (reordered.mem_iff.mp member)
      exact inductionHypothesis original
        ((sortFields_perm fields).mem_iff.mp inFields) valueRestores
  | _ =>
      simp only [restore, Except.ok.injEq] at restores
      rw [← restores]
      rfl

/-- Every value with distinct keys and no byte order mark in front of its
texts comes back as an equal value. -/
theorem restore_of_unmarked
    {value : DocumentValue}
    (distinct : value.DistinctKeys)
    (unmarked : value.Unmarked) :
    ∃ result, value.restore = .ok result ∧ result.SameValue value := by
  induction value using DocumentValue.induction with
  | string value =>
      have noMark : startsWithBom value = false := by
        simpa [Unmarked, allNodes, isUnmarked] using unmarked
      exact ⟨.string value, by rw [restore, stripBom_eq_self noMark], rfl⟩
  | array items inductionHypothesis =>
      have distinctInside := ((allNodes_array _ items).mp distinct).2
      have unmarkedInside := ((allNodes_array _ items).mp unmarked).2
      obtain ⟨restored, restores, same⟩ :
          ∃ restored,
            restoreItems items = .ok restored ∧ SameItems restored items := by
        clear distinct unmarked
        induction items with
        | nil =>
            exact ⟨[], rfl, trivial⟩
        | cons item rest itemsHypothesis =>
            rw [List.forall_mem_cons] at inductionHypothesis
            rw [List.forall_mem_cons] at distinctInside unmarkedInside
            obtain ⟨result, itemRestores, itemSame⟩ :=
              inductionHypothesis.1 distinctInside.1 unmarkedInside.1
            obtain ⟨results, restRestores, restSame⟩ :=
              itemsHypothesis inductionHypothesis.2 distinctInside.2
                unmarkedInside.2
            refine ⟨result :: results, ?_, itemSame, restSame⟩
            rw [restoreItems, itemRestores, restRestores]
            rfl
      exact ⟨.array restored, by rw [restore, restores]; rfl, same⟩
  | document fields inductionHypothesis =>
      obtain ⟨distinctHere, distinctInside⟩ :=
        (allNodes_document _ fields).mp distinct
      obtain ⟨unmarkedHere, unmarkedInside⟩ :=
        (allNodes_document _ fields).mp unmarked
      have sorted := sortFields_perm fields
      have keysKept :
          ∀ field ∈ sortFields fields, stripBom field.1 = field.1 := by
        intro field member
        apply stripBom_eq_self
        have noMarks : ∀ field ∈ fields, startsWithBom field.1 = false := by
          simpa [isUnmarked] using unmarkedHere
        exact noMarks field (sorted.mem_iff.mp member)
      have keys :
          ((sortFields fields).map fun field => stripBom field.1) =
            (sortFields fields).map Prod.fst :=
        List.map_congr_left keysKept
      obtain ⟨built, defines⟩ :=
        @defineAll_distinct (sortFields fields) [] (by
          intro field member
          have member := sorted.mem_iff.mp member
          obtain ⟨result, restores, -⟩ :=
            inductionHypothesis field member (distinctInside field member)
              (unmarkedInside field member)
          exact ⟨result, restores⟩) (by
          rw [keys]
          simp only [List.map_nil, List.nil_append]
          rw [(sorted.map Prod.fst).nodup_iff]
          simpa [hasDistinctKeys] using distinctHere)
      obtain ⟨-, restored, results, reordered⟩ :=
        defineAll_ok (by simp) defines
      rw [List.nil_append] at reordered
      refine ⟨.document built, by rw [restore_document, defines]; rfl, ?_, ?_⟩
      · have sameKeys :
            restored.map Prod.fst = (sortFields fields).map Prod.fst :=
          (keys_restored results).trans keys
        exact ((reordered.map Prod.fst).trans
          (sameKeys ▸ List.Perm.refl _)).trans (sorted.map Prod.fst)
      · rw [sameFields_iff_forall]
        intro field member
        obtain ⟨original, inSorted, keyRestored, restores⟩ :=
          Lists.exists_of_mem_right results (reordered.mem_iff.mp member)
        have inFields := sorted.mem_iff.mp inSorted
        obtain ⟨result, resultRestores, same⟩ :=
          inductionHypothesis original inFields
            (distinctInside original inFields)
            (unmarkedInside original inFields)
        obtain rfl : result = field.2 :=
          Except.ok.inj (resultRestores.symm.trans restores)
        refine ⟨original.2, ?_, same⟩
        rw [keyRestored, keysKept original inSorted]
        exact inFields
  | _ =>
      exact ⟨_, rfl, rfl⟩

/-- The text of the items of an array, restored item by item. -/
theorem textLengthOfItems_restored
    {items restored : List DocumentValue}
    (pairs :
      List.Forall₂
        (fun item result =>
          result.textLength ≤ item.textLength ∧
            (result.textLength = item.textLength → item.Unmarked))
        items restored) :
    textLengthOfItems restored ≤ textLengthOfItems items ∧
      (textLengthOfItems restored = textLengthOfItems items →
        ∀ item ∈ items, item.Unmarked) := by
  induction pairs with
  | nil =>
      simp
  | cons head tail inductionHypothesis =>
      simp only [textLengthOfItems, List.forall_mem_cons]
      refine ⟨by omega, ?_⟩
      intro same
      exact ⟨head.2 (by omega), inductionHypothesis.2 (by omega)⟩

/-- The text of the fields of a document, restored field by field. -/
theorem textLengthOfFields_restored
    {fields restored : List (JsString × DocumentValue)}
    (pairs :
      List.Forall₂
        (fun field result =>
          result.1 = stripBom field.1 ∧
            result.2.textLength ≤ field.2.textLength ∧
            (result.2.textLength = field.2.textLength →
              field.2.Unmarked))
        fields restored) :
    textLengthOfFields restored ≤ textLengthOfFields fields ∧
      (textLengthOfFields restored = textLengthOfFields fields →
        ∀ field ∈ fields,
          startsWithBom field.1 = false ∧ field.2.Unmarked) := by
  induction pairs with
  | nil =>
      simp
  | @cons field result fields results head tail inductionHypothesis =>
      obtain ⟨key, value⟩ := field
      obtain ⟨resultKey, resultValue⟩ := result
      obtain ⟨rfl, shorter, exact⟩ := head
      dsimp only at shorter exact
      have mark := length_stripBom key
      simp only [textLengthOfFields, List.forall_mem_cons]
      refine ⟨by omega, ?_⟩
      intro same
      refine ⟨⟨?_, exact (by omega)⟩, inductionHypothesis.2 (by omega)⟩
      have none : (startsWithBom key).toNat = 0 := by omega
      simpa using none

/-- Restoring never adds text, and keeps all of it only without marks. -/
theorem restore_textLength
    {value result : DocumentValue}
    (restores : value.restore = .ok result) :
    result.textLength ≤ value.textLength ∧
      (result.textLength = value.textLength → value.Unmarked) := by
  induction value using DocumentValue.induction generalizing result with
  | string value =>
      obtain rfl := Except.ok.inj restores
      have mark := length_stripBom value
      simp only [textLength]
      refine ⟨by omega, ?_⟩
      intro same
      have none : (startsWithBom value).toNat = 0 := by omega
      simpa [Unmarked, allNodes, isUnmarked] using none
  | array items inductionHypothesis =>
      rw [restore] at restores
      obtain ⟨restored, itemsRestore, same⟩ := Result.bind_eq_ok.mp restores
      obtain rfl := Except.ok.inj same
      have pairs :=
        Lists.forall₂_imp_of_mem (restoreItems_ok.mp itemsRestore)
          (fun item member result holds =>
            @inductionHypothesis item member result holds)
      have text := textLengthOfItems_restored pairs
      refine ⟨text.1, ?_⟩
      intro same
      exact (allNodes_array _ items).mpr ⟨rfl, text.2 same⟩
  | document fields inductionHypothesis =>
      obtain ⟨built, restored, rfl, -, results, reordered⟩ :=
        restore_document_ok restores
      have sorted := sortFields_perm fields
      have pairs :=
        Lists.forall₂_imp_of_mem results
          (fun field member result holds =>
            And.intro holds.1
              (@inductionHypothesis field (sorted.mem_iff.mp member)
                result.2 holds.2))
      have text := textLengthOfFields_restored pairs
      have builtText :
          (DocumentValue.document built).textLength =
            textLengthOfFields restored := by
        rw [textLength, textLengthOfFields_eq, textLengthOfFields_eq]
        exact (reordered.map _).sum_eq
      have sortedText :
          (DocumentValue.document fields).textLength =
            textLengthOfFields (sortFields fields) := by
        rw [textLength, textLengthOfFields_eq, textLengthOfFields_eq]
        exact (sorted.map _).sum_eq.symm
      rw [builtText, sortedText]
      refine ⟨text.1, ?_⟩
      intro same
      have inside := text.2 same
      refine (allNodes_document _ fields).mpr ⟨?_, ?_⟩
      · simp only [isUnmarked, List.all_eq_true, Bool.not_eq_true']
        intro field member
        exact (inside field (sorted.mem_iff.mpr member)).1
      · intro field member
        exact (inside field (sorted.mem_iff.mpr member)).2
  | _ =>
      simp only [restore, Except.ok.injEq] at restores
      rw [← restores]
      exact ⟨le_rfl, fun _ => rfl⟩

end DocumentValue

/--
For every value that can be encoded, decoding its encoding succeeds with an
equal value exactly when no string and no key in it starts with a byte order
mark.
-/
theorem decode_encode_same_iff
    {value : DocumentValue}
    (distinct : value.DistinctKeys)
    {bytes : Bytes}
    (encodes : encodeDocumentValue value = .ok bytes) :
    (∃ decoded,
        decodeDocumentValue bytes = .ok decoded ∧
          decoded.SameValue value) ↔
      value.Unmarked := by
  obtain ⟨encodable, fits, rfl⟩ := encodeDocumentValue_ok.mp encodes
  rw [decodeDocumentValue_raw encodable fits]
  constructor
  · rintro ⟨decoded, restores, same⟩
    have text :=
      same.textLength_eq (DocumentValue.restore_distinctKeys restores)
    exact (DocumentValue.restore_textLength restores).2 text
  · intro unmarked
    exact DocumentValue.restore_of_unmarked distinct unmarked

/-- A document with a key and a string comes back. -/
theorem decode_encode_same_name :
    ∃ bytes decoded,
      encodeDocumentValue (.document [(utf16 "name", .string (utf16 "a"))]) =
          .ok bytes ∧
        decodeDocumentValue bytes = .ok decoded ∧
        decoded.SameValue
          (.document [(utf16 "name", .string (utf16 "a"))]) := by
  have encodes :
      encodeDocumentValue
          (.document [(utf16 "name", .string (utf16 "a"))]) =
        .ok [11, 0, 0, 0, 1, 0, 0, 0, 4, 110, 97, 109, 101, 7, 0, 0, 0, 1,
          97] := by
    decide +kernel
  obtain ⟨decoded, decodes, same⟩ :=
    (decode_encode_same_iff (by decide +kernel) encodes).mpr
      (by decide +kernel)
  exact ⟨_, decoded, encodes, decodes, same⟩

/-- A string that starts with a byte order mark does not come back. -/
theorem decode_encode_marked_string :
    ∃ value bytes,
      value.DistinctKeys ∧ encodeDocumentValue value = .ok bytes ∧
        ¬ ∃ decoded,
          decodeDocumentValue bytes = .ok decoded ∧
            decoded.SameValue value := by
  refine ⟨.string [0xFEFF, 0x61], [7, 0, 0, 0, 4, 0xEF, 0xBB, 0xBF, 0x61],
    rfl, by decide +kernel, ?_⟩
  rintro ⟨decoded, decodes, same⟩
  have result :
      decodeDocumentValue [7, 0, 0, 0, 4, 0xEF, 0xBB, 0xBF, 0x61] =
        .ok (.string [0x61]) := by
    decide +kernel
  rw [result] at decodes
  obtain rfl := Except.ok.inj decodes
  simp [DocumentValue.SameValue] at same

end SinterDb
