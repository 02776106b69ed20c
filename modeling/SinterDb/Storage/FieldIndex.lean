import SinterDb.Lib.JsMap
import SinterDb.Lib.Search
import SinterDb.Storage.Update

namespace SinterDb

open Unicode

/-!
# Field indexes

An index of one field: the documents by the canonical key of their value, the
values of each comparable kind in order, and the documents without the field.
-/

/-- `ID_INDEX_NAME`. -/
def idIndexName : JsString := utf16 "_id_"

/-- `MAX_INDEXES_PER_COLLECTION`. -/
def maxIndexesPerCollection : Nat := 32

/-- `MAX_INDEX_NAME_LENGTH`. -/
def maxIndexNameLength : Nat := 127

/-- `IndexSpec`; a descending index has direction -1. -/
structure IndexSpec where
  name : JsString
  field : JsString
  descending : Bool
  unique : Bool
  sparse : Bool
  deriving Repr, DecidableEq

/-- `CreateIndexInput`. -/
structure CreateIndexInput where
  field : JsString
  direction : Option JsNumber := none
  unique : Option Bool := none
  sparse : Option Bool := none
  name : Option JsString := none
  deriving Repr, DecidableEq

/-- `invalidIndex`. -/
def invalidIndex (message : JsString) : Thrown :=
  .storage ⟨.invalidIndex, message, none⟩

/-- The direction as a template literal writes it. -/
def directionText (descending : Bool) : JsString :=
  if descending then utf16 "-1" else utf16 "1"

/-- `normalizeIndexSpec`. -/
def normalizeIndexSpec (input : CreateIndexInput) : Except Thrown IndexSpec :=
  let field := input.field
  let direction := input.direction.getD (JsNumber.ofInt 1)
  let descending := decide (direction = JsNumber.ofInt (-1))
  let name :=
    input.name.getD (field ++ utf16 "_" ++ directionText descending)
  if field = [] then
    .error (invalidIndex
      (utf16 "An index requires a non-empty field path."))
  else if (splitPath field).any isReservedSegment then
    .error (invalidIndex
      (utf16 "Index field path " ++ Json.quote field ++
        utf16 " contains an empty or reserved segment."))
  else if field = utf16 "_id" ∨ field.take 4 = utf16 "_id." then
    .error (invalidIndex
      (utf16 ("The _id field always has a unique index, which cannot be " ++
        "created or changed.")))
  else if direction ≠ JsNumber.ofInt 1 ∧ direction ≠ JsNumber.ofInt (-1) then
    .error (invalidIndex (utf16 "Index direction must be 1 or -1."))
  else if name = [] ∨ maxIndexNameLength < name.length ∨
      name = idIndexName ∨ name.any fun unit => unit.toNat < 32 then
    .error (invalidIndex
      (utf16 (s!"Index names must be 1 to {maxIndexNameLength} characters " ++
        "without control characters, and cannot be ") ++
        Json.quote idIndexName ++ utf16 "."))
  else
    .ok
      { name := name
        field := field
        descending := descending
        unique := input.unique.getD false
        sparse := input.sparse.getD false }

/-- `sameDefinition`. -/
def sameDefinition (left right : IndexSpec) : Bool :=
  left.field == right.field && left.descending == right.descending &&
    left.unique == right.unique && left.sparse == right.sparse

/-- `ValueClass`. -/
inductive ValueClass where
  | string
  | number
  | bigint
  | date
  | binary
  | id
  deriving Repr, DecidableEq

/-- `valueClassOf`. -/
def valueClassOf (value : DocumentValue) : Option ValueClass :=
  if isComparableValue value then
    match value with
    | .string _ => some .string
    | .number _ => some .number
    | .bigint _ => some .bigint
    | .date _ => some .date
    | .customId _ => some .id
    | _ => some .binary
  else
    none

mutual

/-- The `JSON.stringify` of `describeValue`, with its replacer. -/
def describeText : DocumentValue → JsString
  | .null => utf16 "null"
  | .boolean value => if value then utf16 "true" else utf16 "false"
  | .number value =>
      if value.isFinite then Json.numberText value else utf16 "null"
  | .bigint value => Json.quote (Json.integerText value ++ utf16 "n")
  | .string value => Json.quote value
  | .date none => utf16 "null"
  | .date (some time) => Json.quote (Json.isoText time.milliseconds)
  | .binary value =>
      Json.quote (utf16 "<" ++ Json.decimal value.length ++ utf16 " bytes>")
  | .customId id => Json.quote id.toHexString
  | .array items =>
      utf16 "[" ++ [0x2C].intercalate (describeItems items) ++ utf16 "]"
  | .document fields =>
      [0x7B] ++ [0x2C].intercalate (describeFields fields) ++ [0x7D]

/-- The texts of the items of an array. -/
def describeItems : List DocumentValue → List JsString
  | [] => []
  | item :: rest => describeText item :: describeItems rest

/-- The texts of the fields of a document. -/
def describeFields : List (JsString × DocumentValue) → List JsString
  | [] => []
  | (key, value) :: rest =>
      (Json.quote key ++ utf16 ":" ++ describeText value) ::
        describeFields rest

end

/-- `describeValue`. -/
def describeValue (value : DocumentValue) : JsString :=
  let text := describeText value
  if 100 < text.length then text.take 97 ++ utf16 "..." else text

/-- `IndexBound`. -/
structure IndexBound where
  value : DocumentValue
  inclusive : Bool
  deriving Repr, DecidableEq

/-- `OrderedEntry`. -/
structure OrderedEntry where
  value : DocumentValue
  key : Bytes
  deriving Repr, DecidableEq

/-- `IndexConflict`. -/
structure IndexConflict where
  index : JsString
  field : JsString
  description : JsString
  deriving Repr, DecidableEq

/-- `FieldIndex`. -/
structure FieldIndex where
  spec : IndexSpec
  byValue : JsMap Bytes (List JsString)
  missing : List JsString
  ordered : JsMap ValueClass (List OrderedEntry)
  unsorted : List ValueClass
  arrayValues : Int
  indexedDocuments : Int

/-- `Set.prototype.add`. -/
def addKey (keys : List JsString) (key : JsString) : List JsString :=
  if key ∈ keys then keys else keys ++ [key]

/-- A value is an array. -/
def isArray : DocumentValue → Bool
  | .array _ => true
  | _ => false

/-- `lowerBound`. -/
def lowerBound (entries : List OrderedEntry) (value : DocumentValue) : Nat :=
  Search.bound
    (fun entry => compareValues entry.value value == some .lt)
    entries

/-- `upperBound`. -/
def upperBound (entries : List OrderedEntry) (value : DocumentValue) : Nat :=
  Search.bound
    (fun entry =>
      compareValues entry.value value == some .lt ||
        compareValues entry.value value == some .eq)
    entries

/-- The loop of `removeOrdered` from its first position on. -/
def removeRun
    (value : DocumentValue)
    (key : Bytes) : List OrderedEntry → List OrderedEntry
  | [] => []
  | entry :: rest =>
      if compareValues entry.value value = some .eq then
        if entry.key = key then rest else entry :: removeRun value key rest
      else
        entry :: rest

namespace FieldIndex

/-- The constructor. -/
def create (spec : IndexSpec) : FieldIndex where
  spec := spec
  byValue := .empty
  missing := []
  ordered := .empty
  unsorted := []
  arrayValues := 0
  indexedDocuments := 0

/-- The path of the indexed field. -/
def segments (index : FieldIndex) : List JsString :=
  splitPath index.spec.field

/-- `hasArrayValues`. -/
def hasArrayValues (index : FieldIndex) : Bool :=
  0 < index.arrayValues

/-- `insertOrdered`. -/
def insertOrdered
    (index : FieldIndex)
    (value : DocumentValue)
    (key : Bytes)
    (bulk : Bool) : FieldIndex :=
  match valueClassOf value with
  | none => index
  | some valueClass =>
      let entries := (index.ordered.get? valueClass).getD []
      if bulk then
        { index with
          ordered := index.ordered.set valueClass (entries ++ [⟨value, key⟩])
          unsorted :=
            if valueClass ∈ index.unsorted then
              index.unsorted
            else
              index.unsorted ++ [valueClass] }
      else
        { index with
          ordered :=
            index.ordered.set valueClass
              (entries.insertIdx (lowerBound entries value)
                ⟨value, key⟩) }

/-- `removeOrdered`. -/
def removeOrdered
    (index : FieldIndex)
    (value : DocumentValue)
    (key : Bytes) : FieldIndex :=
  match valueClassOf value with
  | none => index
  | some valueClass =>
      match index.ordered.get? valueClass with
      | none => index
      | some entries =>
          let position := lowerBound entries value
          { index with
            ordered :=
              index.ordered.set valueClass
                (entries.take position ++
                  removeRun value key (entries.drop position)) }

/-- `add`. -/
def add
    (index : FieldIndex)
    (docKey : JsString)
    (document : Document)
    (bulk : Bool) : FieldIndex :=
  match resolveField document index.segments with
  | none =>
      if index.spec.sparse then
        index
      else
        { index with
          missing := addKey index.missing docKey
          indexedDocuments := index.indexedDocuments + 1 }
  | some value =>
      let key := canonicalKey value
      let entered :=
        match index.byValue.get? key with
        | some _ => index
        | none =>
            ({ index with byValue := index.byValue.set key [] } :
              FieldIndex).insertOrdered value key bulk
      { entered with
        byValue :=
          entered.byValue.set key
            (addKey ((entered.byValue.get? key).getD []) docKey)
        arrayValues :=
          if isArray value then index.arrayValues + 1 else index.arrayValues
        indexedDocuments := index.indexedDocuments + 1 }

/-- One class of `finishBulk`: its entries in order. -/
def sortClass (index : FieldIndex) (valueClass : ValueClass) : FieldIndex :=
  { index with
    ordered :=
      index.ordered.modify valueClass fun entries =>
        entries.insertionSort fun left right =>
          compareValues left.value right.value ≠ some .gt }

/-- `finishBulk`. -/
def finishBulk (index : FieldIndex) : FieldIndex :=
  { index.unsorted.foldl sortClass index with unsorted := [] }

/-- The documents that are left under a value; none take its entry away. -/
def unlist
    (index : FieldIndex)
    (value : DocumentValue)
    (rest : List JsString) : FieldIndex :=
  let key := canonicalKey value
  if rest = [] then
    ({ index with byValue := index.byValue.delete key } :
      FieldIndex).removeOrdered value key
  else
    { index with byValue := index.byValue.set key rest }

/-- `remove`. -/
def remove
    (index : FieldIndex)
    (docKey : JsString)
    (document : Document) : FieldIndex :=
  match resolveField document index.segments with
  | none =>
      if !index.spec.sparse && decide (docKey ∈ index.missing) then
        { index with
          missing := index.missing.filter fun other => !(other == docKey)
          indexedDocuments := index.indexedDocuments - 1 }
      else
        index
  | some value =>
      let key := canonicalKey value
      match index.byValue.get? key with
      | none => index
      | some keys =>
          if docKey ∈ keys then
            { index.unlist value (keys.filter fun other =>
                !(other == docKey)) with
              arrayValues :=
                if isArray value then
                  index.arrayValues - 1
                else
                  index.arrayValues
              indexedDocuments := index.indexedDocuments - 1 }
          else
            index

/-- `conflict`. -/
def conflict (index : FieldIndex) (description : JsString) : IndexConflict :=
  ⟨index.spec.name, index.spec.field, description⟩

/-- `conflictFor`. -/
def conflictFor
    (index : FieldIndex)
    (docKey : JsString)
    (document : Document) : Option IndexConflict :=
  if !index.spec.unique then
    none
  else
    match resolveField document index.segments with
    | none =>
        if index.spec.sparse then
          none
        else if index.missing.any fun other => !(other == docKey) then
          some (index.conflict
            (utf16 "a document without the field already exists"))
        else
          none
    | some value =>
        match index.byValue.get? (canonicalKey value) with
        | none => none
        | some keys =>
            if keys.any fun other => !(other == docKey) then
              some (index.conflict (utf16 "value " ++ describeValue value))
            else
              none

/-- `lookupEqual`. -/
def lookupEqual
    (index : FieldIndex)
    (value : DocumentValue) : Option (List JsString) :=
  index.byValue.get? (canonicalKey value)

/-- `estimateEqual`. -/
def estimateEqual (index : FieldIndex) (value : DocumentValue) : Nat :=
  ((index.lookupEqual value).getD []).length

/-- The entries of one class, in order. -/
def entriesOf
    (index : FieldIndex)
    (valueClass : ValueClass) : List OrderedEntry :=
  (index.ordered.get? valueClass).getD []

/-- The first position of `rangeEntries`. -/
def rangeStart
    (entries : List OrderedEntry) : Option IndexBound → Nat
  | none => 0
  | some bound =>
      if bound.inclusive then
        lowerBound entries bound.value
      else
        upperBound entries bound.value

/-- The position of `rangeEntries` behind the last one. -/
def rangeEnd
    (entries : List OrderedEntry) : Option IndexBound → Nat
  | none => entries.length
  | some bound =>
      if bound.inclusive then
        upperBound entries bound.value
      else
        lowerBound entries bound.value

/-- `rangeEntries`. -/
def rangeEntries
    (index : FieldIndex)
    (valueClass : ValueClass)
    (lower upper : Option IndexBound) : Nat × Nat :=
  let entries := index.entriesOf valueClass
  let start := rangeStart entries lower
  (start, max start (rangeEnd entries upper))

/-- `estimateRange`. -/
def estimateRange
    (index : FieldIndex)
    (valueClass : ValueClass)
    (lower upper : Option IndexBound) : Nat :=
  let (start, stop) := index.rangeEntries valueClass lower upper
  let average :=
    if index.byValue.size = 0 then
      JsNumber.zero
    else
      (JsNumber.ofInt index.indexedDocuments).div
        (JsNumber.ofInt index.byValue.size)
  ((JsNumber.ofInt (stop - start : Nat)).mul average).ceilNat

/-- `lookupRange`. -/
def lookupRange
    (index : FieldIndex)
    (valueClass : ValueClass)
    (lower upper : Option IndexBound) : List JsString :=
  let entries := index.entriesOf valueClass
  let (start, stop) := index.rangeEntries valueClass lower upper
  ((entries.take stop).drop start).foldl
    (fun keys entry =>
      ((index.byValue.get? entry.key).getD []).foldl addKey keys)
    []

end FieldIndex

end SinterDb
