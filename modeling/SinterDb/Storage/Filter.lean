import SinterDb.Lib.Json
import SinterDb.Protocol.RoundTrip

namespace SinterDb

open Unicode

/-!
# Filters

`compileFilter` turns a filter document into a test of documents.  Equality
compares canonical encodings, so two values are equal exactly when they encode
to the same bytes; ranges compare values of one kind only.
-/

/-- `StorageErrorCode`. -/
inductive StorageErrorCode where
  | invalidDocument
  | invalidDocumentId
  | invalidFilter
  | invalidFindOptions
  | invalidBatch
  | invalidUpdate
  | immutableId
  | duplicateId
  | corruption
  | io
  | diskFull
  | permissionDenied
  | closed
  | locked
  | duplicateKey
  | invalidIndex
  | indexNotFound
  | indexConflict
  | unsupportedFormat
  | invalidBackup
  deriving Repr, DecidableEq

/--
What a `StorageInsertManyError` adds to a `StorageError`.  Its cause is a plain
`StorageError`, which has a code and a message.
-/
structure InsertManyDetails where
  failedIndex : Nat
  insertedIds : List CustomId
  causeCode : StorageErrorCode
  causeMessage : JsString
  deriving Repr, DecidableEq

/-- `StorageError`, and `StorageInsertManyError` when it has details. -/
structure StorageError where
  code : StorageErrorCode
  message : JsString
  insertMany : Option InsertManyDetails := none
  deriving Repr, DecidableEq

/-- What an operation may throw. -/
inductive Thrown where
  | storage (error : StorageError)
  | protocol (error : ProtocolError)
  | other (message : JsString)
  deriving Repr, DecidableEq

/-- Throw what the encoder or the decoder threw. -/
def liftProtocol {α : Type} : Except ProtocolError α → Except Thrown α
  | .ok value => .ok value
  | .error error => .error (.protocol error)

/-- `invalidFilter`. -/
def invalidFilter (message : JsString) : Thrown :=
  .storage ⟨.invalidFilter, message, none⟩

/-- `text.startsWith("$")`. -/
def startsWithDollar (text : JsString) : Bool :=
  text.head? == some 0x24

/-- `path.split(".")`. -/
def splitPath (path : JsString) : List JsString :=
  path.splitOn 0x2E

/-- `resolveField`: the value at a path, if the document has it. -/
def resolveField : Document → List JsString → Option DocumentValue
  | _, [] => none
  | document, [segment] => Document.get? document segment
  | document, segment :: rest =>
      match Document.get? document segment with
      | some (.document inner) => resolveField inner rest
      | _ => none

/--
The bytes of the canonical encoding.  The source encodes with the limits of
the encoder; the values it is applied to come from decoded documents and from
encoded filters, where the limits hold.
-/
def canonicalKey (value : DocumentValue) : Bytes :=
  value.raw

/-- `canonicalEquals`. -/
def canonicalEquals (actual : DocumentValue) (encodedExpected : Bytes) : Bool :=
  decide (canonicalKey actual = encodedExpected)

/-- A test of the value at a path. -/
abbrev FieldPredicate := Option DocumentValue → Bool

/-- `CompiledFilter`. -/
abbrev CompiledFilter := Document → Bool

/-- `CompiledField`. -/
structure CompiledField where
  segments : List JsString
  predicates : List FieldPredicate

/-- `ComparisonOperator`. -/
inductive ComparisonOperator where
  | gt
  | gte
  | lt
  | lte
  deriving Repr, DecidableEq

/-- The name of a comparison operator. -/
def ComparisonOperator.name : ComparisonOperator → JsString
  | .gt => utf16 "$gt"
  | .gte => utf16 "$gte"
  | .lt => utf16 "$lt"
  | .lte => utf16 "$lte"

/-- The results of a comparison that an operator accepts. -/
def ComparisonOperator.accepts : ComparisonOperator → Ordering → Bool
  | .gt, comparison => comparison == .gt
  | .gte, comparison => comparison != .lt
  | .lt, comparison => comparison == .lt
  | .lte, comparison => comparison != .gt

/-- `<` and `>` on strings: by code units. -/
def compareStrings (left right : JsString) : Ordering :=
  cmp (left.map UInt16.toNat) (right.map UInt16.toNat)

/-- `compareBytes` of `filter.ts` and `sort.ts`. -/
def compareByteStrings (left right : Bytes) : Ordering :=
  cmp (left.map UInt8.toNat) (right.map UInt8.toNat)

/-- The value of a finite number, in units of `2 ^ -1074`. -/
def finiteValue? : JsNumber → Option Int
  | .finite negative exponent fraction =>
      some (JsNumber.scaled negative exponent fraction)
  | _ => none

/-- `isComparableValue`. -/
def isComparableValue : DocumentValue → Bool
  | .string _ => true
  | .bigint _ => true
  | .number value => value.isFinite
  | .date time => time.isSome
  | .binary _ => true
  | .customId _ => true
  | _ => false

/-- `compareValues`. -/
def compareValues : DocumentValue → DocumentValue → Option Ordering
  | .string actual, .string expected => some (compareStrings actual expected)
  | .number actual, .number expected =>
      match finiteValue? actual, finiteValue? expected with
      | some actual, some expected => some (cmp actual expected)
      | _, _ => none
  | .bigint actual, .bigint expected => some (cmp actual expected)
  | .date (some actual), .date (some expected) =>
      some (cmp actual.milliseconds expected.milliseconds)
  | .binary actual, .binary expected =>
      some (compareByteStrings actual expected)
  | .customId actual, .customId expected =>
      some (compareByteStrings actual.bytes expected.bytes)
  | _, _ => none

/-- `compileEqualityPredicate`. -/
def compileEqualityPredicate
    (expected : DocumentValue) : Except Thrown FieldPredicate := do
  let encodedExpected ← liftProtocol (encodeDocumentValue expected)
  return fun field =>
    match field with
    | none => false
    | some value => canonicalEquals value encodedExpected

/-- `compileInequalityPredicate`. -/
def compileInequalityPredicate
    (expected : DocumentValue) : Except Thrown FieldPredicate := do
  let encodedExpected ← liftProtocol (encodeDocumentValue expected)
  return fun field =>
    match field with
    | none => true
    | some value => !canonicalEquals value encodedExpected

/-- `compileComparisonPredicate`. -/
def compileComparisonPredicate
    (operator : ComparisonOperator)
    (expected : DocumentValue) : Except Thrown FieldPredicate :=
  if isComparableValue expected then
    .ok fun field =>
      match field with
      | none => false
      | some value =>
          match compareValues value expected with
          | none => false
          | some comparison => operator.accepts comparison
  else
    .error (invalidFilter
      (utf16 "Filter operator " ++ operator.name ++
        utf16 (" requires a comparable string, number, bigint, date, " ++
          "binary value, or CustomId.")))

/-- The values that a membership test looks at: the value and its items. -/
def membershipValues : DocumentValue → List DocumentValue
  | .array items => .array items :: items
  | value => [value]

/-- `compileMembershipPredicate`. -/
def compileMembershipPredicate
    (path operator : JsString)
    (operand : DocumentValue)
    (negate : Bool) : Except Thrown FieldPredicate :=
  match operand with
  | .array candidates => do
      let encodedCandidates ←
        candidates.mapM fun candidate =>
          liftProtocol (encodeDocumentValue candidate)
      return fun field =>
        match field with
        | none => negate
        | some value =>
            let matched :=
              (membershipValues value).any fun element =>
                encodedCandidates.any (canonicalEquals element)
            if negate then !matched else matched
  | _ =>
      .error (invalidFilter
        (utf16 "Filter operator " ++ operator ++ utf16 " for field " ++
          Json.quote path ++ utf16 " requires an array."))

/-- `compileExistsPredicate`. -/
def compileExistsPredicate
    (path : JsString)
    (operand : DocumentValue) : Except Thrown FieldPredicate :=
  match operand with
  | .boolean expected => .ok fun field => field.isSome == expected
  | _ =>
      .error (invalidFilter
        (utf16 "Filter operator $exists for field " ++ Json.quote path ++
          utf16 " requires a boolean."))

/-- `isOperatorDocument`, for the fields of a document. -/
def hasOperators (fields : Document) : Bool :=
  fields.any fun field => startsWithDollar field.1

/-- The first check of `compileOperatorDocument`. -/
def checkOperatorNames
    (path : JsString)
    (operators : Document) : Except Thrown Unit :=
  if operators.any fun field => !startsWithDollar field.1 then
    .error (invalidFilter
      (utf16 "Filter field " ++ Json.quote path ++
        utf16 " cannot mix operators with literal fields."))
  else
    .ok ()

/-- The error of `compileNotPredicate`. -/
def invalidNot (path : JsString) : Thrown :=
  invalidFilter
    (utf16 "Filter operator $not for field " ++ Json.quote path ++
      utf16 " requires an operator document.")

/-- The test that `compileNotPredicate` returns. -/
def negatePredicates (predicates : List FieldPredicate) : FieldPredicate :=
  fun field => !(predicates.all fun predicate => predicate field)

mutual

/-- The predicate of one operator in `compileOperatorDocument`. -/
def compileOperator
    (path name : JsString)
    (operand : DocumentValue) : Except Thrown FieldPredicate :=
  if name = utf16 "$eq" then
    compileEqualityPredicate operand
  else if name = utf16 "$ne" then
    compileInequalityPredicate operand
  else if name = utf16 "$gt" then
    compileComparisonPredicate .gt operand
  else if name = utf16 "$gte" then
    compileComparisonPredicate .gte operand
  else if name = utf16 "$lt" then
    compileComparisonPredicate .lt operand
  else if name = utf16 "$lte" then
    compileComparisonPredicate .lte operand
  else if name = utf16 "$in" then
    compileMembershipPredicate path (utf16 "$in") operand false
  else if name = utf16 "$nin" then
    compileMembershipPredicate path (utf16 "$nin") operand true
  else if name = utf16 "$exists" then
    compileExistsPredicate path operand
  else if name = utf16 "$not" then
    match operand with
    | .document inner =>
        if hasOperators inner then do
          checkOperatorNames path inner
          let predicates ← compileOperators path inner
          return negatePredicates predicates
        else
          .error (invalidNot path)
    | _ => .error (invalidNot path)
  else
    .error (invalidFilter
      (utf16 "Filter field " ++ Json.quote path ++
        utf16 " uses unsupported operator " ++ Json.quote name ++
        utf16 "."))

/-- The predicates of `compileOperatorDocument`, in order. -/
def compileOperators
    (path : JsString)
    (operators : List (JsString × DocumentValue)) :
    Except Thrown (List FieldPredicate) :=
  match operators with
  | [] => .ok []
  | (name, operand) :: rest => do
      let predicate ← compileOperator path name operand
      let predicates ← compileOperators path rest
      return predicate :: predicates

end

/-- `compileOperatorDocument`. -/
def compileOperatorDocument
    (path : JsString)
    (operators : Document) : Except Thrown (List FieldPredicate) := do
  checkOperatorNames path operators
  compileOperators path operators

/-- The check of one segment in `compileFieldPath`. -/
def checkFieldSegment
    (path segment : JsString) : Except Thrown Unit :=
  if segment = [] then
    .error (invalidFilter
      (utf16 "Filter field path " ++ Json.quote path ++
        utf16 " contains an empty segment."))
  else if startsWithDollar segment then
    .error (invalidFilter
      (utf16 "Filter field path " ++ Json.quote path ++
        utf16 " contains a reserved segment."))
  else
    .ok ()

/-- `compileFieldPath`. -/
def compileFieldPath (path : JsString) : Except Thrown (List JsString) := do
  if path = [] then
    throw (invalidFilter (utf16 "Filter field paths cannot be empty."))
  (splitPath path).forM (checkFieldSegment path)
  return splitPath path

/-- `compileField`. -/
def compileField
    (path : JsString)
    (value : DocumentValue) : Except Thrown CompiledField := do
  let segments ← compileFieldPath path
  match value with
  | .document fields =>
      if hasOperators fields then
        return ⟨segments, ← compileOperatorDocument path fields⟩
      else
        return ⟨segments, [← compileEqualityPredicate value]⟩
  | _ => return ⟨segments, [← compileEqualityPredicate value]⟩

/-- `matchesCompiledFilter`. -/
def matchesCompiledFilter
    (document : Document)
    (fields : List CompiledField) : Bool :=
  fields.all fun field =>
    field.predicates.all fun predicate =>
      predicate (resolveField document field.segments)

/-- The fields and the logical operators that `compileClauses` collects. -/
structure CompiledClauses where
  fields : List CompiledField
  logical : List CompiledFilter

/-- The test that `compileClauses` returns. -/
def CompiledClauses.test (clauses : CompiledClauses) : CompiledFilter :=
  fun document =>
    matchesCompiledFilter document clauses.fields &&
      clauses.logical.all fun test => test document

/-- A value is a document. -/
def isPlainDocument : DocumentValue → Bool
  | .document _ => true
  | _ => false

/-- The operand error of `compileLogicalOperator`. -/
def invalidLogicalOperand (name : JsString) : Thrown :=
  invalidFilter
    (utf16 "Filter operator " ++ name ++
      utf16 " requires a non-empty array of filter documents.")

/-- The test of a logical operator over its clauses. -/
def combineClauses
    (name : JsString)
    (clauses : List CompiledFilter) : CompiledFilter :=
  fun document =>
    if name = utf16 "$and" then
      clauses.all fun test => test document
    else if name = utf16 "$or" then
      clauses.any fun test => test document
    else
      !(clauses.any fun test => test document)

mutual

/-- `compileClauses`, with the lists that it fills. -/
def compileClauses
    (filter : List (JsString × DocumentValue)) :
    Except Thrown CompiledClauses :=
  match filter with
  | [] => .ok ⟨[], []⟩
  | (key, value) :: rest =>
      if startsWithDollar key then do
        let test ← compileLogicalOperator key value
        let clauses ← compileClauses rest
        return { clauses with logical := test :: clauses.logical }
      else do
        let field ← compileField key value
        let clauses ← compileClauses rest
        return { clauses with fields := field :: clauses.fields }

/-- `compileLogicalOperator`. -/
def compileLogicalOperator
    (name : JsString)
    (operand : DocumentValue) : Except Thrown CompiledFilter :=
  if name ≠ utf16 "$and" ∧ name ≠ utf16 "$or" ∧ name ≠ utf16 "$nor" then
    .error (invalidFilter
      (utf16 "Filter uses unsupported top-level operator " ++
        Json.quote name ++ utf16 "."))
  else
    match operand with
    | .array items =>
        if items = [] ∨ ¬ items.all isPlainDocument then
          .error (invalidLogicalOperand name)
        else do
          let clauses ← compileEach items
          return combineClauses name clauses
    | _ => .error (invalidLogicalOperand name)

/-- The clauses of a logical operator, compiled in order. -/
def compileEach
    (items : List DocumentValue) : Except Thrown (List CompiledFilter) :=
  match items with
  | [] => .ok []
  | .document fields :: rest => do
      let clauses ← compileClauses fields
      let tests ← compileEach rest
      return clauses.test :: tests
  | _ :: rest => compileEach rest

end

/-- `compileFilter`. -/
def compileFilter (filter : Document) : Except Thrown CompiledFilter :=
  let compiled := do
    let _ ← liftProtocol (encodeDocument filter)
    compileClauses filter
  match compiled with
  | .ok clauses => .ok clauses.test
  | .error (.storage error) => .error (.storage error)
  | .error _ =>
      .error (invalidFilter (utf16 "Find filter could not be encoded."))

end SinterDb
