import SinterDb.Lib.Lists
import SinterDb.Lib.Result
import SinterDb.Lib.Unicode
import SinterDb.Lib.Binary64

namespace SinterDb

/-!
# Document values

The values that documents hold, as the trees that a JavaScript program sees
when it follows references.  A document is the list of its own properties in
the order in which `Object.keys` lists them.
-/

/-- `ProtocolErrorCode`. -/
inductive ProtocolErrorCode where
  | invalidMagic
  | unsupportedVersion
  | invalidMessageKind
  | invalidFlags
  | invalidRequestId
  | invalidPayload
  | payloadTooLarge
  | incompleteFrame
  | payloadLengthMismatch
  | invalidDocumentValue
  | integerOutOfRange
  | invalidDate
  | documentTooDeep
  | cyclicDocument
  | unexpectedEnd
  | unknownValueTag
  | invalidUtf8
  | duplicateDocumentKey
  | trailingData
  | invalidMessagePayload
  deriving Repr, DecidableEq

/-- `ProtocolError`. -/
structure ProtocolError where
  code : ProtocolErrorCode
  message : JsString
  deriving Repr, DecidableEq

/-- `CUSTOM_ID_BYTE_LENGTH`. -/
def customIdByteLength : Nat := 16

/-- `CustomId`. -/
structure CustomId where
  bytes : Bytes
  length_eq : bytes.length = customIdByteLength
  deriving Repr, DecidableEq

/-- A byte that is repeated makes an id. -/
theorem CustomId.length_repeated (byte : UInt8) :
    (List.replicate 16 byte).length = customIdByteLength :=
  List.length_replicate

/-- `CustomId.toHexString`. -/
def CustomId.toHexString (id : CustomId) : JsString :=
  id.bytes.flatMap fun byte =>
    [Unicode.hexDigit (byte.toNat / 16), Unicode.hexDigit (byte.toNat % 16)]

/-- The largest time value of a `Date`, in milliseconds. -/
def maxTime : Nat := 8640000000000000

/-- A time value in the range of `Date`. -/
structure TimeValue where
  milliseconds : Int
  inRange : milliseconds.natAbs ≤ maxTime
  deriving Repr, DecidableEq

/-- The time value of `new Date(milliseconds)`; none for an invalid date. -/
def timeClip (milliseconds : Int) : Option TimeValue :=
  if inRange : milliseconds.natAbs ≤ maxTime then
    some ⟨milliseconds, inRange⟩
  else
    none

/-- `DocumentValue`; a date without a time value is an invalid date. -/
inductive DocumentValue where
  | null
  | boolean (value : Bool)
  | number (value : JsNumber)
  | bigint (value : Int)
  | string (value : JsString)
  | date (time : Option TimeValue)
  | binary (value : Bytes)
  | customId (id : CustomId)
  | array (items : List DocumentValue)
  | document (fields : List (JsString × DocumentValue))
  deriving Repr, Inhabited

/-- `Document`: the own properties of an object. -/
abbrev Document := List (JsString × DocumentValue)

namespace DocumentValue

/-- Induction over a value, its items and the values of its fields. -/
theorem induction
    {motive : DocumentValue → Prop}
    (null : motive .null)
    (boolean : ∀ value, motive (.boolean value))
    (number : ∀ value, motive (.number value))
    (bigint : ∀ value, motive (.bigint value))
    (string : ∀ value, motive (.string value))
    (date : ∀ time, motive (.date time))
    (binary : ∀ value, motive (.binary value))
    (customId : ∀ id, motive (.customId id))
    (array :
      ∀ items, (∀ item ∈ items, motive item) → motive (.array items))
    (document :
      ∀ fields, (∀ field ∈ fields, motive field.2) →
        motive (.document fields))
    (value : DocumentValue) :
    motive value :=
  @DocumentValue.rec motive
    (fun items => ∀ item ∈ items, motive item)
    (fun fields => ∀ field ∈ fields, motive field.2)
    (fun field => motive field.2)
    null boolean number bigint string date binary customId array document
    (List.forall_mem_nil _)
    (fun _ _ first rest => List.forall_mem_cons.mpr ⟨first, rest⟩)
    (List.forall_mem_nil _)
    (fun _ _ first rest => List.forall_mem_cons.mpr ⟨first, rest⟩)
    (fun _ _ holds => holds)
    value

mutual

/-- The test for equality of values. -/
def same : DocumentValue → DocumentValue → Bool
  | .null, .null => true
  | .boolean left, .boolean right => left == right
  | .number left, .number right => decide (left = right)
  | .bigint left, .bigint right => decide (left = right)
  | .string left, .string right => decide (left = right)
  | .date left, .date right => decide (left = right)
  | .binary left, .binary right => decide (left = right)
  | .customId left, .customId right => decide (left = right)
  | .array left, .array right => sameItems left right
  | .document left, .document right => sameFields left right
  | _, _ => false

/-- The test for equality of lists of values. -/
def sameItems : List DocumentValue → List DocumentValue → Bool
  | [], [] => true
  | left :: lefts, right :: rights =>
      same left right && sameItems lefts rights
  | _, _ => false

/-- The test for equality of lists of fields. -/
def sameFields :
    List (JsString × DocumentValue) →
      List (JsString × DocumentValue) → Bool
  | [], [] => true
  | (leftKey, left) :: lefts, (rightKey, right) :: rights =>
      decide (leftKey = rightKey) && same left right &&
        sameFields lefts rights
  | _, _ => false

end

/-- The test for equality of lists follows that of their items. -/
theorem sameItems_iff
    {left : List DocumentValue}
    (items : ∀ item ∈ left, ∀ other, same item other = true ↔ item = other)
    (right : List DocumentValue) :
    sameItems left right = true ↔ left = right := by
  induction left generalizing right with
  | nil =>
      cases right <;> simp [sameItems]
  | cons item rest inductionHypothesis =>
      rw [List.forall_mem_cons] at items
      cases right with
      | nil =>
          simp [sameItems]
      | cons other others =>
          simp [sameItems, items.1, inductionHypothesis items.2]

/-- The test for equality of fields follows that of their values. -/
theorem sameFields_iff
    {left : List (JsString × DocumentValue)}
    (fields :
      ∀ field ∈ left, ∀ other, same field.2 other = true ↔ field.2 = other)
    (right : List (JsString × DocumentValue)) :
    sameFields left right = true ↔ left = right := by
  induction left generalizing right with
  | nil =>
      cases right <;> simp [sameFields]
  | cons field rest inductionHypothesis =>
      rw [List.forall_mem_cons] at fields
      obtain ⟨key, value⟩ := field
      cases right with
      | nil =>
          simp [sameFields]
      | cons other others =>
          obtain ⟨otherKey, otherValue⟩ := other
          simp [sameFields, fields.1, inductionHypothesis fields.2, and_assoc]

/-- The test for equality decides equality. -/
theorem same_iff
    (left right : DocumentValue) :
    same left right = true ↔ left = right := by
  induction left using DocumentValue.induction generalizing right with
  | array items inductionHypothesis =>
      cases right <;> simp [same, sameItems_iff inductionHypothesis]
  | document fields inductionHypothesis =>
      cases right <;> simp [same, sameFields_iff inductionHypothesis]
  | _ =>
      cases right <;> simp [same]

instance : DecidableEq DocumentValue := fun left right =>
  decidable_of_iff (same left right = true) (same_iff left right)

end DocumentValue

/-- An own property of an object, if it has it. -/
def Document.get? (document : Document) (key : JsString) :
    Option DocumentValue :=
  (document.find? fun field => field.1 == key).map Prod.snd

/-- `Object.hasOwn`. -/
def Document.hasOwn (document : Document) (key : JsString) : Bool :=
  document.any fun field => field.1 == key

/-- `Object.keys`. -/
def Document.keys (document : Document) : List JsString :=
  document.map Prod.fst

namespace Document

/-- A field that is found is a field of the document. -/
theorem mem_of_get?
    {document : Document}
    {key : JsString}
    {value : DocumentValue}
    (found : Document.get? document key = some value) :
    (key, value) ∈ document := by
  obtain ⟨⟨other, stored⟩, isField, rfl⟩ := Option.map_eq_some_iff.mp found
  have same := List.find?_some isField
  obtain rfl := beq_iff_eq.mp same
  exact List.mem_of_find?_eq_some isField

/-- A field of a document with distinct keys is found. -/
theorem get?_of_mem
    {document : Document}
    {key : JsString}
    {value : DocumentValue}
    (distinct : (document.map Prod.fst).Nodup)
    (member : (key, value) ∈ document) :
    Document.get? document key = some value := by
  cases found : Document.get? document key with
  | none =>
      unfold Document.get? at found
      rw [Option.map_eq_none_iff, List.find?_eq_none] at found
      exact absurd (beq_self_eq_true key) (found _ member)
  | some other =>
      have alsoMember := mem_of_get? found
      have same :=
        List.inj_on_of_nodup_map distinct member alsoMember rfl
      rw [(Prod.mk.inj same).2]

end Document

/-- The value of a decimal digit. -/
def digit? (unit : UInt16) : Option Nat :=
  if 0x30 ≤ unit.toNat ∧ unit.toNat ≤ 0x39 then
    some (unit.toNat - 0x30)
  else
    none

/-- The value of a string of decimal digits. -/
def decimal? (text : JsString) : Option Nat :=
  text.foldlM (fun value unit => (digit? unit).map (value * 10 + ·)) 0

/-- The array index that a key spells in canonical form. -/
def arrayIndex? (key : JsString) : Option Nat :=
  if key = [] ∨ key.head? = some 0x30 ∧ key.length ≠ 1 then
    none
  else
    (decimal? key).filter (· < 2 ^ 32 - 1)

/-- A field comes before the array index `index` in property order. -/
def precedesIndex (index : Nat) (field : JsString × DocumentValue) : Bool :=
  (arrayIndex? field.1).any (· < index)

/--
Adding an own property that the object does not have: array indexes come
first in ascending order, other keys in the order of their creation.
-/
def Document.define
    (document : Document)
    (key : JsString)
    (value : DocumentValue) : Document :=
  match arrayIndex? key with
  | none => document ++ [(key, value)]
  | some index =>
      document.takeWhile (precedesIndex index) ++
        (key, value) :: document.dropWhile (precedesIndex index)

/-- Assigning an own property, `document[key] = value`. -/
def Document.set
    (document : Document)
    (key : JsString)
    (value : DocumentValue) : Document :=
  if Document.hasOwn document key then
    document.map fun field =>
      if field.1 == key then (field.1, value) else field
  else
    Document.define document key value

namespace DocumentValue

mutual

/-- A test holds of a value and of every value inside it. -/
def allNodes (test : DocumentValue → Bool) : DocumentValue → Bool
  | .array items => test (.array items) && allItems test items
  | .document fields => test (.document fields) && allFields test fields
  | value => test value

/-- A test holds of every value inside a list of values. -/
def allItems (test : DocumentValue → Bool) : List DocumentValue → Bool
  | [] => true
  | item :: rest => allNodes test item && allItems test rest

/-- A test holds of every value inside a list of fields. -/
def allFields (test : DocumentValue → Bool) :
    List (JsString × DocumentValue) → Bool
  | [] => true
  | (_, value) :: rest => allNodes test value && allFields test rest

end

/-- The values inside an array are its items and the values inside them. -/
theorem allNodes_array
    (test : DocumentValue → Bool)
    (items : List DocumentValue) :
    allNodes test (.array items) = true ↔
      test (.array items) = true ∧
        ∀ item ∈ items, allNodes test item = true := by
  have inside :
      allItems test items = true ↔
        ∀ item ∈ items, allNodes test item = true := by
    induction items with
    | nil =>
        simp [allItems]
    | cons item rest inductionHypothesis =>
        simp [allItems, inductionHypothesis]
  simp [allNodes, inside]

/-- The values inside a document are those of its fields. -/
theorem allNodes_document
    (test : DocumentValue → Bool)
    (fields : List (JsString × DocumentValue)) :
    allNodes test (.document fields) = true ↔
      test (.document fields) = true ∧
        ∀ field ∈ fields, allNodes test field.2 = true := by
  have inside :
      allFields test fields = true ↔
        ∀ field ∈ fields, allNodes test field.2 = true := by
    induction fields with
    | nil =>
        simp [allFields]
    | cons field rest inductionHypothesis =>
        obtain ⟨key, value⟩ := field
        simp only [allFields, Bool.and_eq_true, inductionHypothesis,
          List.forall_mem_cons]
  simp only [allNodes, Bool.and_eq_true, inside]

/-- The keys of an object differ from each other. -/
def hasDistinctKeys : DocumentValue → Bool
  | .document fields => decide (fields.map Prod.fst).Nodup
  | _ => true

/-- No object in the tree has the same key twice, as in every JavaScript
value. -/
def DistinctKeys (value : DocumentValue) : Prop :=
  value.allNodes hasDistinctKeys = true

instance (value : DocumentValue) : Decidable value.DistinctKeys :=
  inferInstanceAs (Decidable (_ = true))

mutual

/-- How many levels of containers with content a value has. -/
def height : DocumentValue → Nat
  | .array items => heightOfItems items
  | .document fields => heightOfFields fields
  | _ => 0

/-- One more than the largest height of the items; 0 without items. -/
def heightOfItems : List DocumentValue → Nat
  | [] => 0
  | item :: rest => max (item.height + 1) (heightOfItems rest)

/-- One more than the largest height of the fields; 0 without fields. -/
def heightOfFields : List (JsString × DocumentValue) → Nat
  | [] => 0
  | (_, value) :: rest => max (value.height + 1) (heightOfFields rest)

end

/-- An array is within a height when its items are within the next one. -/
theorem height_array_le
    {items : List DocumentValue}
    {bound : Nat} :
    (DocumentValue.array items).height ≤ bound ↔
      ∀ item ∈ items, item.height + 1 ≤ bound := by
  rw [height]
  induction items with
  | nil =>
      simp [heightOfItems]
  | cons item rest inductionHypothesis =>
      simp [heightOfItems, inductionHypothesis]

/-- A document is within a height when its fields are within the next one. -/
theorem height_document_le
    {fields : List (JsString × DocumentValue)}
    {bound : Nat} :
    (DocumentValue.document fields).height ≤ bound ↔
      ∀ field ∈ fields, field.2.height + 1 ≤ bound := by
  rw [height]
  induction fields with
  | nil =>
      simp [heightOfFields]
  | cons field rest inductionHypothesis =>
      obtain ⟨key, value⟩ := field
      simp only [heightOfFields, max_le_iff, inductionHypothesis,
        List.forall_mem_cons]

end DocumentValue

end SinterDb
