import SinterDb.Storage.Filter

namespace SinterDb

open Unicode

/-!
# Sorting

`compileSort` orders documents by the values at its paths, a missing value
first and values of different kinds by their rank.
-/

/-- A sort entry: a path and a direction. -/
abbrev SortEntry := JsString × JsNumber

/-- `Rank`. -/
inductive Rank where
  | missing
  | null
  | number
  | string
  | binary
  | id
  | boolean
  | date
  | array
  | document
  deriving Repr, DecidableEq

/-- The number of a rank. -/
def Rank.code : Rank → Nat
  | .missing => 0
  | .null => 1
  | .number => 2
  | .string => 3
  | .binary => 4
  | .id => 5
  | .boolean => 6
  | .date => 7
  | .array => 8
  | .document => 9

/-- `rankOf`. -/
def rankOf : DocumentValue → Rank
  | .null => .null
  | .number _ => .number
  | .bigint _ => .number
  | .string _ => .string
  | .boolean _ => .boolean
  | .date _ => .date
  | .binary _ => .binary
  | .customId _ => .id
  | .array _ => .array
  | .document _ => .document

/-- The rank of a value that may be missing. -/
def sortRank : Option DocumentValue → Rank
  | none => .missing
  | some value => rankOf value

/-- The place of a number on the number line; none for NaN. -/
def numericPosition : DocumentValue → Option (Int × Int)
  | .number value => value.position
  | .bigint value => some (0, value * JsNumber.one)
  | .date (some time) => some (0, time.milliseconds * JsNumber.one)
  | _ => none

/-- `compareNumbers`: NaN comes first. -/
def compareNumbers (left right : DocumentValue) : Ordering :=
  match numericPosition left, numericPosition right with
  | none, none => .eq
  | none, some _ => .lt
  | some _, none => .gt
  | some left, some right => cmp (toLex left) (toLex right)

/-- `compareSortValues`. -/
def compareSortValues (left right : Option DocumentValue) : Ordering :=
  if sortRank left ≠ sortRank right then
    if (sortRank left).code < (sortRank right).code then .lt else .gt
  else
    match left, right with
    | some (.string left), some (.string right) => compareStrings left right
    | some (.boolean left), some (.boolean right) =>
        cmp left.toNat right.toNat
    | some (.binary left), some (.binary right) =>
        compareByteStrings left right
    | some (.customId left), some (.customId right) =>
        compareByteStrings left.bytes right.bytes
    | some left, some right =>
        match rankOf left with
        | .number => compareNumbers left right
        | .date => compareNumbers left right
        | _ => .eq
    | _, _ => .eq

/-- `compareDocumentValues`. -/
def compareDocumentValues (left right : DocumentValue) : Ordering :=
  compareSortValues (some left) (some right)

/-- `SortKey`; a descending key has direction -1. -/
structure SortKey where
  segments : List JsString
  descending : Bool
  deriving Repr, DecidableEq

/-- `invalidSort`. -/
def invalidSort (message : JsString) : Thrown :=
  .storage ⟨.invalidFindOptions, message, none⟩

/-- The check of one entry in `parseSortSpecification`. -/
def parseSortEntry
    (seen : List JsString)
    (entry : SortEntry) : Except Thrown SortKey :=
  let path := entry.1
  if path = [] then
    .error (invalidSort (utf16 "Sort path must be a non-empty string."))
  else if entry.2 ≠ JsNumber.ofInt 1 ∧ entry.2 ≠ JsNumber.ofInt (-1) then
    .error (invalidSort
      (utf16 "Sort direction for " ++ Json.quote path ++
        utf16 " must be 1 or -1."))
  else if path ∈ seen then
    .error (invalidSort
      (utf16 "Sort path " ++ Json.quote path ++ utf16 " is repeated."))
  else if (splitPath path).any fun segment =>
      segment.isEmpty || startsWithDollar segment then
    .error (invalidSort
      (utf16 "Sort path " ++ Json.quote path ++
        utf16 " contains an empty or reserved segment."))
  else
    .ok ⟨splitPath path, decide (entry.2 = JsNumber.ofInt (-1))⟩

/-- The loop of `parseSortSpecification`, with the paths seen so far. -/
def parseSortEntries
    (seen : List JsString) :
    List SortEntry → Except Thrown (List SortKey)
  | [] => .ok []
  | entry :: rest => do
      let key ← parseSortEntry seen entry
      let keys ← parseSortEntries (entry.1 :: seen) rest
      return key :: keys

/-- `parseSortSpecification`. -/
def parseSortSpecification
    (specification : List SortEntry) : Except Thrown (List SortKey) :=
  if specification = [] then
    .error (invalidSort
      (utf16 "Sort must be a non-empty array of [path, direction]."))
  else
    parseSortEntries [] specification

/-- The comparison of two documents by the keys of a sort. -/
def compareByKeys (keys : List SortKey) (left right : Document) : Ordering :=
  match keys with
  | [] => .eq
  | key :: rest =>
      match
        compareSortValues (resolveField left key.segments)
          (resolveField right key.segments) with
      | .eq => compareByKeys rest left right
      | comparison => if key.descending then comparison.swap else comparison

/-- `CompiledSort`. -/
abbrev CompiledSort := List Document → List Document

/-- `compileSort`; the sort of the source is stable, and so is this one. -/
def compileSort
    (specification : List SortEntry) : Except Thrown CompiledSort := do
  let keys ← parseSortSpecification specification
  return fun documents =>
    documents.insertionSort fun left right =>
      compareByKeys keys left right ≠ .gt

end SinterDb
