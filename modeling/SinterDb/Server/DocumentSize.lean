import SinterDb.Protocol.Received

namespace SinterDb

/-!
# Estimated sizes of documents

`estimateEncodedSize` bounds the encoding of a value from above.
-/

/-- `TAG_BYTES`, `LENGTH_BYTES` and the bytes of the widest number. -/
def tagBytes : Nat := 1

@[inherit_doc tagBytes]
def lengthBytes : Nat := 4

@[inherit_doc tagBytes]
def widestNumberBytes : Nat := 8

/-- `Buffer.byteLength` of a text in UTF-8. -/
def byteLength (text : JsString) : Nat :=
  (TextEncoder.encode text).length

mutual

/-- `estimateEncodedSize`. -/
def estimateEncodedSize : DocumentValue → Nat
  | .null => tagBytes
  | .boolean _ => tagBytes
  | .number _ => tagBytes + widestNumberBytes
  | .bigint _ => tagBytes + widestNumberBytes
  | .string value => tagBytes + lengthBytes + byteLength value
  | .date _ => tagBytes + widestNumberBytes
  | .binary value => tagBytes + lengthBytes + value.length
  | .customId _ => tagBytes + customIdByteLength
  | .array items => tagBytes + lengthBytes + estimateItems items
  | .document fields => tagBytes + lengthBytes + estimateFields fields

/-- The sizes of the items of an array. -/
def estimateItems : List DocumentValue → Nat
  | [] => 0
  | item :: items => estimateEncodedSize item + estimateItems items

/-- The sizes of the fields of a document. -/
def estimateFields : List (JsString × DocumentValue) → Nat
  | [] => 0
  | (key, field) :: fields =>
      lengthBytes + byteLength key + estimateEncodedSize field +
        estimateFields fields

end

/-- The items of an array are not underestimated when none of them is. -/
theorem sum_raw_le_estimateItems
    {items : List DocumentValue}
    (each : ∀ item ∈ items, item.raw.length ≤ estimateEncodedSize item) :
    (items.map fun item => item.raw.length).sum ≤ estimateItems items := by
  induction items with
  | nil =>
      rfl
  | cons item items ih =>
      rw [List.forall_mem_cons] at each
      have later := ih each.2
      have first := each.1
      simp only [List.map_cons, List.sum_cons, estimateItems]
      omega

/-- The fields of a document are not underestimated when none of them is. -/
theorem sum_rawField_le_estimateFields
    {fields : List (JsString × DocumentValue)}
    (each :
      ∀ field ∈ fields, field.2.raw.length ≤ estimateEncodedSize field.2) :
    (fields.map fun field => (rawField field).length).sum ≤
      estimateFields fields := by
  induction fields with
  | nil =>
      rfl
  | cons field fields ih =>
      obtain ⟨key, value⟩ := field
      rw [List.forall_mem_cons] at each
      have later := ih each.2
      have first := each.1
      simp only [List.map_cons, List.sum_cons, estimateFields, rawField,
        lengthPrefixed, List.length_append, BigEndian.length_encode,
        byteLength, lengthBytes] at later first ⊢
      omega

/-- The encoding of a value is not underestimated. -/
theorem length_raw_le_estimateEncodedSize (value : DocumentValue) :
    value.raw.length ≤ estimateEncodedSize value := by
  induction value using DocumentValue.induction with
  | boolean value =>
      cases value <;> simp [DocumentValue.raw, estimateEncodedSize, tagBytes]
  | number value =>
      have nine := length_rawNumber_le value
      simp only [DocumentValue.raw, estimateEncodedSize, tagBytes,
        widestNumberBytes]
      omega
  | date time =>
      cases time <;>
        simp [DocumentValue.raw, estimateEncodedSize, tagBytes,
          widestNumberBytes]
  | customId id =>
      have sixteen := id.length_eq
      simp only [DocumentValue.raw, estimateEncodedSize, tagBytes,
        List.length_cons]
      omega
  | array items ih =>
      have inside := sum_raw_le_estimateItems ih
      rw [DocumentValue.length_raw_array]
      simp only [estimateEncodedSize, tagBytes, lengthBytes]
      omega
  | document fields ih =>
      have inside := sum_rawField_le_estimateFields ih
      rw [DocumentValue.length_raw_document]
      simp only [estimateEncodedSize, tagBytes, lengthBytes]
      omega
  | _ =>
      simp only [DocumentValue.raw, estimateEncodedSize, tagBytes,
        lengthBytes, widestNumberBytes, byteLength, lengthPrefixed,
        List.length_cons, List.length_append, List.length_nil,
        BigEndian.length_encode, BigEndian.length_encodeSigned]
      omega

end SinterDb
