import SinterDb.Storage.FieldIndex

namespace SinterDb

open Unicode

/-!
# Canonical keys and the order of values

The canonical key of a value decides equality, and the values of one class are
ordered like the elements of a linear order.
-/

/-- The canonical key is what the encoder makes of the value. -/
def DocumentValue.HasKey (value : DocumentValue) : Prop :=
  encodeDocumentValue value = .ok (canonicalKey value)

/-- The values that have a key are those that the encoder accepts. -/
theorem hasKey_iff
    {value : DocumentValue} :
    value.HasKey ↔
      value.Encodable ∧ value.raw.length ≤ maxPayloadSize := by
  unfold DocumentValue.HasKey canonicalKey
  rw [encodeDocumentValue_ok]
  simp

/-- An id has a key. -/
theorem hasKey_customId
    (id : CustomId) :
    (DocumentValue.customId id).HasKey := by
  refine hasKey_iff.mpr ⟨⟨rfl, Nat.zero_le _⟩, ?_⟩
  simp [DocumentValue.raw, id.length_eq, customIdByteLength, maxPayloadSize]

/-- Equal keys are restored to equal values. -/
theorem restore_eq_of_canonicalKey
    {left right : DocumentValue}
    (leftKey : left.HasKey)
    (rightKey : right.HasKey)
    (same : canonicalKey left = canonicalKey right) :
    left.restore = right.restore := by
  rw [hasKey_iff] at leftKey rightKey
  rw [← decodeDocumentValue_raw leftKey.1 leftKey.2,
    ← decodeDocumentValue_raw rightKey.1 rightKey.2]
  exact congrArg decodeDocumentValue same

/-- The key of a string determines it. -/
theorem string_eq_of_canonicalKey
    {left right : JsString}
    (leftKey : (DocumentValue.string left).HasKey)
    (rightKey : (DocumentValue.string right).HasKey)
    (same :
      canonicalKey (.string left) = canonicalKey (.string right)) :
    left = right := by
  have leftWellFormed : isWellFormed left = true := by
    simpa [DocumentValue.Writable, DocumentValue.allNodes,
      DocumentValue.isWritable] using (hasKey_iff.mp leftKey).1.1
  have rightWellFormed : isWellFormed right = true := by
    simpa [DocumentValue.Writable, DocumentValue.allNodes,
      DocumentValue.isWritable] using (hasKey_iff.mp rightKey).1.1
  have data := congrArg (List.drop 5) same
  simp only [canonicalKey, DocumentValue.raw, lengthPrefixed,
    List.drop_succ_cons] at data
  rw [List.drop_left' (BigEndian.length_encode 4 _),
    List.drop_left' (BigEndian.length_encode 4 _)] at data
  exact encode_injective leftWellFormed rightWellFormed data

/-- What a value that is no container is restored from. -/
theorem eq_of_restore
    {value result : DocumentValue}
    (restores : value.restore = .ok result)
    (scalar : isComparableValue result = true) :
    value = result ∨
      ∃ text mark, value = .string text ∧ result = .string mark := by
  cases value with
  | string value =>
      rw [DocumentValue.restore] at restores
      exact .inr ⟨value, stripBom value, rfl, (Except.ok.inj restores).symm⟩
  | array items =>
      rw [DocumentValue.restore] at restores
      obtain ⟨_, _, same⟩ := Result.bind_eq_ok.mp restores
      obtain rfl := Except.ok.inj same
      cases scalar
  | document fields =>
      rw [DocumentValue.restore] at restores
      obtain ⟨_, _, same⟩ := Result.bind_eq_ok.mp restores
      obtain rfl := Except.ok.inj same
      cases scalar
  | _ =>
      rw [DocumentValue.restore] at restores <;>
        simp_all

/-- The key of a comparable value determines it among all values. -/
theorem eq_of_canonicalKey
    {left right : DocumentValue}
    (comparable : isComparableValue left = true)
    (leftKey : left.HasKey)
    (rightKey : right.HasKey)
    (same : canonicalKey left = canonicalKey right) :
    left = right := by
  have restored := restore_eq_of_canonicalKey leftKey rightKey same
  cases left with
  | string left =>
      rw [DocumentValue.restore] at restored
      rcases eq_of_restore restored.symm rfl with rfl | ⟨_, _, rfl, _⟩
      · rw [← string_eq_of_canonicalKey leftKey rightKey same]
      · rw [string_eq_of_canonicalKey leftKey rightKey same]
  | null | boolean _ | array _ | document _ =>
      cases comparable
  | number _ | bigint _ | date _ | binary _ | customId _ =>
      rw [DocumentValue.restore] at restored <;> try simp
      rcases eq_of_restore restored.symm comparable with
        rfl | ⟨_, _, _, impossible⟩
      · rfl
      · cases impossible

/-- A value of a class. -/
def ValueClass.Shape (value : DocumentValue) : ValueClass → Prop
  | .string => ∃ text, value = .string text
  | .number =>
      ∃ negative exponent fraction,
        value = .number (.finite negative exponent fraction)
  | .bigint => ∃ integer, value = .bigint integer
  | .date => ∃ time, value = .date (some time)
  | .binary => ∃ data, value = .binary data
  | .id => ∃ id, value = .customId id

/-- The class of a value tells its shape. -/
theorem shape_of_valueClassOf
    {value : DocumentValue}
    {valueClass : ValueClass}
    (inClass : valueClassOf value = some valueClass) :
    valueClass.Shape value := by
  unfold valueClassOf at inClass
  split_ifs at inClass with comparable
  cases value with
  | number value =>
      obtain rfl := Option.some.inj inClass
      cases value with
      | finite negative exponent fraction =>
          exact ⟨negative, exponent, fraction, rfl⟩
      | _ =>
          cases comparable
  | date time =>
      obtain rfl := Option.some.inj inClass
      cases time with
      | some time =>
          exact ⟨time, rfl⟩
      | none =>
          cases comparable
  | string _ | bigint _ | binary _ | customId _ =>
      obtain rfl := Option.some.inj inClass
      exact ⟨_, rfl⟩
  | _ =>
      cases comparable

/-- A value of a class is comparable. -/
theorem isComparableValue_of_class
    {value : DocumentValue}
    {valueClass : ValueClass}
    (inClass : valueClassOf value = some valueClass) :
    isComparableValue value = true := by
  unfold valueClassOf at inClass
  split_ifs at inClass with comparable
  exact comparable

/-- The units or the bytes that a value is compared by. -/
def comparedUnits : DocumentValue → List Nat
  | .string text => text.map UInt16.toNat
  | .binary data => data.map UInt8.toNat
  | .customId id => id.bytes.map UInt8.toNat
  | _ => []

/-- The integer that a value is compared by. -/
def comparedInteger : DocumentValue → Int
  | .number value => (finiteValue? value).getD 0
  | .bigint integer => integer
  | .date (some time) => time.milliseconds
  | _ => 0

/-- The values of one class compare like elements of a linear order. -/
theorem exists_order
    (valueClass : ValueClass) :
    ∃ (β : Type) (_ : LinearOrder β) (place : DocumentValue → β),
      ∀ left right, valueClassOf left = some valueClass →
        valueClassOf right = some valueClass →
        compareValues left right = some (cmp (place left) (place right)) := by
  suffices shapes :
      ∃ (β : Type) (_ : LinearOrder β) (place : DocumentValue → β),
        ∀ left right, valueClass.Shape left → valueClass.Shape right →
          compareValues left right = some (cmp (place left) (place right)) by
    obtain ⟨β, order, place, compares⟩ := shapes
    exact ⟨β, order, place, fun left right leftClass rightClass =>
      compares left right (shape_of_valueClassOf leftClass)
        (shape_of_valueClassOf rightClass)⟩
  cases valueClass with
  | string =>
      refine ⟨List Nat, inferInstance, comparedUnits, ?_⟩
      rintro _ _ ⟨left, rfl⟩ ⟨right, rfl⟩
      simp only [compareValues, compareStrings]
      congr!
  | number =>
      refine ⟨Int, inferInstance, comparedInteger, ?_⟩
      rintro _ _ ⟨_, _, _, rfl⟩ ⟨_, _, _, rfl⟩
      rfl
  | bigint =>
      refine ⟨Int, inferInstance, comparedInteger, ?_⟩
      rintro _ _ ⟨left, rfl⟩ ⟨right, rfl⟩
      rfl
  | date =>
      refine ⟨Int, inferInstance, comparedInteger, ?_⟩
      rintro _ _ ⟨left, rfl⟩ ⟨right, rfl⟩
      rfl
  | binary =>
      refine ⟨List Nat, inferInstance, comparedUnits, ?_⟩
      rintro _ _ ⟨left, rfl⟩ ⟨right, rfl⟩
      simp only [compareValues, compareByteStrings]
      congr!
  | id =>
      refine ⟨List Nat, inferInstance, comparedUnits, ?_⟩
      rintro _ _ ⟨left, rfl⟩ ⟨right, rfl⟩
      simp only [compareValues, compareByteStrings]
      congr!

/-- Values compare only within a class. -/
theorem valueClassOf_of_compareValues
    {left right : DocumentValue}
    {comparison : Ordering}
    (compares : compareValues left right = some comparison) :
    ∃ valueClass,
      valueClassOf left = some valueClass ∧
        valueClassOf right = some valueClass := by
  unfold compareValues at compares
  split at compares
  · exact ⟨.string, rfl, rfl⟩
  · rename_i left right
    cases left <;> cases right <;>
      simp [finiteValue?] at compares
    exact ⟨.number, rfl, rfl⟩
  · exact ⟨.bigint, rfl, rfl⟩
  · exact ⟨.date, rfl, rfl⟩
  · exact ⟨.binary, rfl, rfl⟩
  · exact ⟨.id, rfl, rfl⟩
  · cases compares

end SinterDb
