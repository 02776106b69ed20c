import SinterDb.Storage.Sort

namespace SinterDb

open Unicode

/-!
# Updates

`compileUpdate` checks an update document and turns it into instructions that
change a document one after the other.
-/

/-- `UpdateOperator`. -/
inductive UpdateOperator where
  | set
  | unset
  | inc
  | min
  | max
  | push
  | pull
  | addToSet
  deriving Repr, DecidableEq

/-- The name of an update operator. -/
def UpdateOperator.name : UpdateOperator → JsString
  | .set => utf16 "$set"
  | .unset => utf16 "$unset"
  | .inc => utf16 "$inc"
  | .min => utf16 "$min"
  | .max => utf16 "$max"
  | .push => utf16 "$push"
  | .pull => utf16 "$pull"
  | .addToSet => utf16 "$addToSet"

/-- `SUPPORTED_OPERATORS`, by name. -/
def UpdateOperator.ofName? (name : JsString) : Option UpdateOperator :=
  [UpdateOperator.set, .unset, .inc, .min, .max, .push, .pull,
    .addToSet].find? fun operator => operator.name == name

/-- `Instruction`. -/
structure Instruction where
  operator : UpdateOperator
  path : JsString
  segments : List JsString
  operand : DocumentValue
  deriving Repr, DecidableEq

/-- `CompiledUpdate`, as a function from a document to the changed one. -/
abbrev CompiledUpdate := Document → Except Thrown Document

/-- `invalidUpdate`. -/
def invalidUpdate (message : JsString) : Thrown :=
  .storage ⟨.invalidUpdate, message, none⟩

/-- `immutableId`. -/
def immutableId : Thrown :=
  .storage ⟨.immutableId, utf16 "The _id field cannot be modified.", none⟩

/-- `overlaps`: one path is a front part of the other. -/
def overlaps : List JsString → List JsString → Bool
  | left :: lefts, right :: rights =>
      decide (left = right) && overlaps lefts rights
  | _, _ => true

/-- A segment that no update path may have. -/
def isReservedSegment (segment : JsString) : Bool :=
  segment.isEmpty || startsWithDollar segment ||
    segment == utf16 "__proto__"

/-- `parsePath`. -/
def parsePath
    (path operator : JsString) : Except Thrown (List JsString) :=
  if (splitPath path).any isReservedSegment then
    .error (invalidUpdate
      (utf16 "Update path " ++ Json.quote path ++ utf16 " for " ++ operator ++
        utf16 " contains an empty or reserved segment."))
  else if (splitPath path).head? = some (utf16 "_id") then
    .error immutableId
  else
    .ok (splitPath path)

/-- `validateOperand`. -/
def validateOperand
    (operator : UpdateOperator)
    (path : JsString)
    (operand : DocumentValue) : Except Thrown DocumentValue :=
  let invalidExtremum :=
    invalidUpdate
      (operator.name ++ utf16 " for " ++ Json.quote path ++
        utf16 " requires a scalar value.")
  match operator, operand with
  | .inc, .bigint value => .ok (.bigint value)
  | .inc, .number value =>
      if value.isFinite then
        .ok (.number value)
      else
        .error (invalidUpdate
          (utf16 "$inc for " ++ Json.quote path ++
            utf16 " requires a finite number or bigint."))
  | .inc, _ =>
      .error (invalidUpdate
        (utf16 "$inc for " ++ Json.quote path ++
          utf16 " requires a finite number or bigint."))
  | .min, .array _ => .error invalidExtremum
  | .min, .document _ => .error invalidExtremum
  | .max, .array _ => .error invalidExtremum
  | .max, .document _ => .error invalidExtremum
  | _, operand => .ok operand

/-- The instructions of one operator, in the order of its paths. -/
def parseOperands
    (operator : UpdateOperator) :
    Document → Except Thrown (List Instruction)
  | [] => .ok []
  | (path, operand) :: rest => do
      let segments ← parsePath path operator.name
      let operand ← validateOperand operator path operand
      let instructions ← parseOperands operator rest
      return ⟨operator, path, segments, operand⟩ :: instructions

/-- The instructions of one field of an update document. -/
def parseOperator
    (name : JsString)
    (operands : DocumentValue) : Except Thrown (List Instruction) :=
  match UpdateOperator.ofName? name with
  | none =>
      .error (invalidUpdate
        (if startsWithDollar name then
          utf16 "Update operator " ++ Json.quote name ++
            utf16 " is not supported."
        else
          utf16 ("Update documents may only contain update operators. " ++
            "Use replaceOne to replace a document.")))
  | some operator =>
      match operands with
      | .document (field :: fields) => parseOperands operator (field :: fields)
      | _ =>
          .error (invalidUpdate
            (utf16 "Update operator " ++ name ++
              utf16 " requires a non-empty document of field paths."))

/-- The instructions of all fields of an update document. -/
def parseOperators : Document → Except Thrown (List Instruction)
  | [] => .ok []
  | (name, operands) :: rest => do
      let instructions ← parseOperator name operands
      let later ← parseOperators rest
      return instructions ++ later

/-- The conflict of an instruction with a later one. -/
def checkConflict
    (first second : Instruction) : Except Thrown Unit :=
  if overlaps first.segments second.segments then
    .error (invalidUpdate
      (utf16 "Update paths " ++ Json.quote first.path ++ utf16 " and " ++
        Json.quote second.path ++ utf16 " conflict."))
  else
    .ok ()

/-- The check that no two paths of an update overlap. -/
def checkConflicts : List Instruction → Except Thrown Unit
  | [] => .ok ()
  | instruction :: rest => do
      rest.forM (checkConflict instruction)
      checkConflicts rest

/-- `parseUpdate`. -/
def parseUpdate (update : Document) : Except Thrown (List Instruction) := do
  if update = [] then
    throw (invalidUpdate
      (utf16 "Update must be a non-empty document of operators."))
  let instructions ← parseOperators update
  checkConflicts instructions
  return instructions

/-- `valuesEqual`. -/
def valuesEqual (left right : DocumentValue) : Except Thrown Bool := do
  let left ← liftProtocol (encodeDocumentValue left)
  let right ← liftProtocol (encodeDocumentValue right)
  return decide (left = right)

/-- `delete document[key]`. -/
def Document.erase (document : Document) (key : JsString) : Document :=
  document.filter fun field => !(field.1 == key)

/-- `array.some` with a test that may throw. -/
def someM
    (test : DocumentValue → Except Thrown Bool) :
    List DocumentValue → Except Thrown Bool
  | [] => .ok false
  | item :: rest => do
      if ← test item then
        return true
      else
        someM test rest

/-- `getArray`: none when the field is missing. -/
def getArray
    (parent : Document)
    (key path : JsString) : Except Thrown (Option (List DocumentValue)) :=
  match Document.get? parent key with
  | none => .ok none
  | some (.array items) => .ok (some items)
  | some _ =>
      .error (invalidUpdate
        (utf16 "Field " ++ Json.quote path ++ utf16 " is not an array."))

/-- `applyInc`. -/
def applyInc
    (parent : Document)
    (key : JsString)
    (operand : DocumentValue)
    (path : JsString) : Except Thrown Document :=
  match Document.get? parent key with
  | none => .ok (Document.set parent key operand)
  | some current =>
      match current, operand with
      | .number current, .number operand =>
          let result := current.add operand
          if result.isFinite then
            .ok (Document.set parent key (.number result))
          else
            .error (invalidUpdate
              (utf16 "$inc for " ++ Json.quote path ++
                utf16 " overflowed."))
      | .bigint current, .bigint operand =>
          .ok (Document.set parent key (.bigint (current + operand)))
      | _, _ =>
          .error (invalidUpdate
            (utf16 "$inc for " ++ Json.quote path ++
              utf16 (" requires the existing value and operand to both be " ++
                "numbers or both be bigints.")))

/-- `applyExtremum`: the operand replaces a value it compares to so. -/
def applyExtremum
    (parent : Document)
    (key : JsString)
    (operand : DocumentValue)
    (replaces : Ordering) : Document :=
  match Document.get? parent key with
  | none => Document.set parent key operand
  | some current =>
      if compareDocumentValues operand current = replaces then
        Document.set parent key operand
      else
        parent

/-- What `applyInstruction` does with the parent of the last segment. -/
def applyToParent
    (instruction : Instruction)
    (key : JsString)
    (parent : Document) : Except Thrown Document :=
  let operand := instruction.operand
  match instruction.operator with
  | .set => .ok (Document.set parent key operand)
  | .unset => .ok (Document.erase parent key)
  | .inc => applyInc parent key operand instruction.path
  | .min => .ok (applyExtremum parent key operand .lt)
  | .max => .ok (applyExtremum parent key operand .gt)
  | .push => do
      let items ← getArray parent key instruction.path
      return Document.set parent key (.array (items.getD [] ++ [operand]))
  | .addToSet => do
      let items ← getArray parent key instruction.path
      let items := items.getD []
      if ← someM (fun element => valuesEqual element operand) items then
        return Document.set parent key (.array items)
      else
        return Document.set parent key (.array (items ++ [operand]))
  | .pull => do
      match ← getArray parent key instruction.path with
      | none => return parent
      | some [] => return parent
      | some items =>
          let kept ←
            items.filterM fun element => do
              return !(← valuesEqual element operand)
          return Document.set parent key (.array kept)

/-- The error of `resolveParent`. -/
def cannotTraverse (walked : List JsString) : Thrown :=
  invalidUpdate
    (utf16 "Cannot traverse field " ++
      Json.quote ([0x2E].intercalate walked) ++
      utf16 " because it is not a document.")

/--
`resolveParent` and what is then done to the parent: the document with the
parent changed.  Missing documents on the way are created, or nothing is done.
-/
def changeParent
    (create : Bool)
    (change : JsString → Document → Except Thrown Document)
    (walked : List JsString) :
    List JsString → Document → Except Thrown Document
  | [], document => .ok document
  | [key], document => change key document
  | segment :: rest, document =>
      let walked := walked ++ [segment]
      match Document.get? document segment with
      | none =>
          if create then do
            let inner ← changeParent create change walked rest []
            return Document.set document segment (.document inner)
          else
            .ok document
      | some (.document inner) => do
          let inner ← changeParent create change walked rest inner
          return Document.set document segment (.document inner)
      | some _ =>
          if create then .error (cannotTraverse walked) else .ok document

/-- `applyInstruction`. -/
def applyInstruction
    (document : Document)
    (instruction : Instruction) : Except Thrown Document :=
  let create :=
    instruction.operator ≠ .unset && instruction.operator ≠ .pull
  changeParent create (applyToParent instruction) [] instruction.segments
    document

/-- `compileUpdate`. -/
def compileUpdate (update : Document) : Except Thrown CompiledUpdate := do
  let instructions ← parseUpdate update
  return fun document => instructions.foldlM applyInstruction document

/-- `extractEquality`. -/
def extractEquality (value : DocumentValue) : Option DocumentValue :=
  match value with
  | .document fields =>
      if !hasOperators fields then
        some value
      else if fields.map Prod.fst = [utf16 "$eq"] then
        Document.get? fields (utf16 "$eq")
      else
        none
  | _ => some value

/-- The error of `seedDocumentFromFilter`. -/
def cannotSeed (key : JsString) : Thrown :=
  invalidUpdate
    (utf16 "Cannot derive an upsert document from filter field " ++
      Json.quote key ++ utf16 ".")

/-- The loop of `seedDocumentFromFilter`, with the paths assigned so far. -/
def seedFields
    (assigned : List (List JsString))
    (seed : Document) :
    Document → Except Thrown Document
  | [] => .ok seed
  | (key, value) :: rest =>
      if startsWithDollar key then
        seedFields assigned seed rest
      else
        match extractEquality value with
        | none => seedFields assigned seed rest
        | some equality =>
            let segments := splitPath key
            if segments.any isReservedSegment ||
                assigned.any fun other => overlaps other segments then
              .error (cannotSeed key)
            else do
              let seed ←
                changeParent true
                  (fun key parent =>
                    .ok (Document.set parent key equality))
                  [] segments seed
              seedFields (assigned ++ [segments]) seed rest

/-- `seedDocumentFromFilter`. -/
def seedDocumentFromFilter (filter : Document) : Except Thrown Document :=
  seedFields [] [] filter

end SinterDb
