import SinterDb.Lib.Lists
import SinterDb.Lib.Reader
import SinterDb.Storage.FieldIndex

namespace SinterDb

open Unicode

/-!
# The records of the log

Every record of the log holds the operations of one write.  Names are read
back without a byte order mark, so a list of operations comes back unchanged
exactly when none of its names starts with one.
-/

/-- `ID_BYTE_LENGTH`. -/
def idByteLength : Nat := 16

/-- `MAX_NAME_BYTE_LENGTH`. -/
def maxNameByteLength : Nat := 65535

/-- `Operation`. -/
inductive Operation where
  | createCollection (database collection : JsString)
  | put (database collection : JsString) (id document : Bytes)
  | delete (database collection : JsString) (id : Bytes)
  | createIndex (database collection : JsString) (index : IndexSpec)
  | dropIndex (database collection name : JsString)
  deriving Repr, DecidableEq

/-- The message of what was thrown. -/
def Thrown.message : Thrown → JsString
  | .storage error => error.message
  | .protocol error => error.message
  | .other message => message

/-- `writeUInt16BE` and its like, which refuse a value that does not fit. -/
def writeUIntBE (width value : Nat) : Except Thrown Bytes :=
  if value < 256 ^ width then
    .ok (BigEndian.encode width value)
  else
    .error (.other (utf16 "The value of \"value\" is out of range."))

/-- `encodeName`. -/
def encodeName (name : JsString) : Except Thrown Bytes :=
  let bytes := TextEncoder.encode name
  if bytes.length = 0 ∨ maxNameByteLength < bytes.length then
    .error (.other
      (utf16 s!"Names must be 1 to {maxNameByteLength} bytes of UTF-8."))
  else
    .ok (BigEndian.encode 2 bytes.length ++ bytes)

/-- `encodeId`. -/
def encodeId (id : Bytes) : Except Thrown Bytes :=
  if id.length = idByteLength then
    .ok id
  else
    .error (.other
      (utf16 s!"Document ids must be {idByteLength} bytes."))

/-- `encodeBytes`. -/
def encodeBytes (bytes : Bytes) : Except Thrown Bytes := do
  let length ← writeUIntBE 4 bytes.length
  return length ++ bytes

/-- The flags of an index definition. -/
def indexFlags (spec : IndexSpec) : Nat :=
  (if spec.unique then 1 else 0) ||| (if spec.sparse then 2 else 0) |||
    (if spec.descending then 4 else 0)

/-- `encodeIndexSpec`. -/
def encodeIndexSpec (spec : IndexSpec) : Except Thrown Bytes := do
  let name ← encodeName spec.name
  let field ← encodeName spec.field
  return name ++ field ++ BigEndian.encode 1 (indexFlags spec)

/-- One operation in the loop of `encodeOperations`. -/
def encodeOperation : Operation → Except Thrown Bytes
  | .createCollection database collection => do
      let database ← encodeName database
      let collection ← encodeName collection
      return [1] ++ (database ++ collection)
  | .put database collection id document => do
      let database ← encodeName database
      let collection ← encodeName collection
      let id ← encodeId id
      let document ← encodeBytes document
      return [2] ++ (database ++ (collection ++ (id ++ document)))
  | .delete database collection id => do
      let database ← encodeName database
      let collection ← encodeName collection
      let id ← encodeId id
      return [3] ++ (database ++ (collection ++ id))
  | .createIndex database collection index => do
      let database ← encodeName database
      let collection ← encodeName collection
      let index ← encodeIndexSpec index
      return [4] ++ (database ++ (collection ++ index))
  | .dropIndex database collection name => do
      let database ← encodeName database
      let collection ← encodeName collection
      let name ← encodeName name
      return [5] ++ (database ++ (collection ++ name))

/-- `encodeOperations`. -/
def encodeOperations (operations : List Operation) : Except Thrown Bytes := do
  let header ← writeUIntBE 4 operations.length
  let parts ← operations.mapM encodeOperation
  return header ++ parts.flatten

/-- The message of `malformed`. -/
def malformedMessage (reason : JsString) : JsString :=
  utf16 "A transaction record is malformed: " ++ reason

/-- `malformed`. -/
def malformed (reason : JsString) : Thrown :=
  .storage ⟨.corruption, malformedMessage reason, none⟩

/-- The definition that the parts of an encoded index stand for. -/
def decodeIndexSpec
    {ε : Type}
    (invalid : JsString → ε)
    (name field : JsString)
    (flags : Nat) : Except ε IndexSpec :=
  let direction : Int := if flags &&& 4 = 0 then 1 else -1
  match normalizeIndexSpec
      { name := some name
        field := field
        direction := some (JsNumber.ofInt direction)
        unique := some (decide (flags &&& 1 ≠ 0))
        sparse := some (decide (flags &&& 2 ≠ 0)) } with
  | .ok spec => .ok spec
  | .error error =>
      .error (invalid
        (utf16 "An index definition is invalid: " ++ error.message))

/-- `readIndexSpec`, for any reader of names and flags. -/
def readIndexSpec
    {ε : Type}
    (name : Reader ε JsString)
    (u8 : Reader ε Nat)
    (invalid : JsString → ε) : Reader ε IndexSpec := do
  let indexName ← name
  let field ← name
  let flags ← u8
  decodeIndexSpec invalid indexName field flags

namespace OperationReader

/-- The error at the end of the bytes. -/
def unexpectedEnd : Thrown :=
  malformed (utf16 "The record ends unexpectedly.")

/-- `Reader.u8`, `Reader.u16` and `Reader.u32`. -/
def uint (width : Nat) : Reader Thrown Nat :=
  Reader.uint unexpectedEnd width

/-- `Reader.bytes`. -/
def bytes (length : Nat) : Reader Thrown Bytes :=
  Reader.bytes unexpectedEnd length

/-- `Reader.name`. -/
def name : Reader Thrown JsString :=
  Reader.text unexpectedEnd (malformed (utf16 "A name is empty."))
    (malformed (utf16 "A name is not valid UTF-8."))

/-- One operation in the loop of `decodeOperations`. -/
def operation : Reader Thrown Operation := do
  let kind ← uint 1
  match kind with
  | 1 => do
      let database ← name
      let collection ← name
      return .createCollection database collection
  | 2 => do
      let database ← name
      let collection ← name
      let id ← bytes idByteLength
      let length ← uint 4
      let document ← bytes length
      return .put database collection id document
  | 3 => do
      let database ← name
      let collection ← name
      let id ← bytes idByteLength
      return .delete database collection id
  | 4 => do
      let database ← name
      let collection ← name
      let index ← readIndexSpec name (uint 1) malformed
      return .createIndex database collection index
  | 5 => do
      let database ← name
      let collection ← name
      let dropped ← name
      return .dropIndex database collection dropped
  | kind => throw (malformed (utf16 s!"Unknown operation kind {kind}."))

/-- All operations of a record. -/
def operations : Reader Thrown (List Operation) := do
  let count ← uint 4
  Reader.times operation count

end OperationReader

/-- `decodeOperations`. -/
def decodeOperations (payload : Bytes) : Except Thrown (List Operation) := do
  let (operations, rest) ← OperationReader.operations payload
  if rest = [] then
    return operations
  else
    throw (malformed (utf16 "The record has trailing bytes."))

/-- The names in an operation. -/
def Operation.names : Operation → List JsString
  | .createCollection database collection => [database, collection]
  | .put database collection _ _ => [database, collection]
  | .delete database collection _ => [database, collection]
  | .createIndex database collection index =>
      [database, collection, index.name, index.field]
  | .dropIndex database collection name => [database, collection, name]

/-- A name that can be written: well formed, not empty and not too long. -/
structure IsName (name : JsString) : Prop where
  wellFormed : isWellFormed name = true
  notEmpty : name ≠ []
  short : (TextEncoder.encode name).length ≤ maxNameByteLength

instance (name : JsString) : Decidable (IsName name) :=
  decidable_of_iff
    (isWellFormed name = true ∧ name ≠ [] ∧
      (TextEncoder.encode name).length ≤ maxNameByteLength)
    ⟨fun ⟨wellFormed, notEmpty, short⟩ => ⟨wellFormed, notEmpty, short⟩,
      fun isName => ⟨isName.wellFormed, isName.notEmpty, isName.short⟩⟩

/-- What else holds of the operations that are written. -/
def Operation.HasParts : Operation → Prop
  | .put _ _ id _ => id.length = idByteLength
  | .delete _ _ id => id.length = idByteLength
  | .createIndex _ _ index => ∃ input, normalizeIndexSpec input = .ok index
  | _ => True

/-- The document of an operation has a length of four bytes. -/
def Operation.Fits : Operation → Prop
  | .put _ _ _ document => document.length < 2 ^ 32
  | _ => True

/-- No name in an operation starts with a byte order mark. -/
def Operation.Unmarked (operation : Operation) : Prop :=
  ∀ name ∈ operation.names, startsWithBom name = false

instance (operation : Operation) : Decidable operation.Unmarked :=
  inferInstanceAs
    (Decidable (∀ name ∈ operation.names, startsWithBom name = false))

/-- What the reader makes of a written operation. -/
def restoreOperation : Operation → Except Thrown Operation
  | .createCollection database collection =>
      .ok (.createCollection (stripBom database) (stripBom collection))
  | .put database collection id document =>
      .ok (.put (stripBom database) (stripBom collection) id document)
  | .delete database collection id =>
      .ok (.delete (stripBom database) (stripBom collection) id)
  | .createIndex database collection index => do
      let index ←
        decodeIndexSpec malformed (stripBom index.name) (stripBom index.field)
          (indexFlags index)
      return .createIndex (stripBom database) (stripBom collection) index
  | .dropIndex database collection name =>
      .ok (.dropIndex (stripBom database) (stripBom collection)
        (stripBom name))

/-- The bytes of a name. -/
def rawName (name : JsString) : Bytes :=
  BigEndian.encode 2 (TextEncoder.encode name).length ++
    TextEncoder.encode name

/-- The bytes of an index definition. -/
def rawIndexSpec (spec : IndexSpec) : Bytes :=
  rawName spec.name ++
    (rawName spec.field ++ BigEndian.encode 1 (indexFlags spec))

/-- The bytes of an operation. -/
def rawOperation : Operation → Bytes
  | .createCollection database collection =>
      [1] ++ (rawName database ++ rawName collection)
  | .put database collection id document =>
      [2] ++ (rawName database ++ (rawName collection ++
        (id ++ lengthPrefixed document)))
  | .delete database collection id =>
      [3] ++ (rawName database ++ (rawName collection ++ id))
  | .createIndex database collection index =>
      [4] ++ (rawName database ++ (rawName collection ++ rawIndexSpec index))
  | .dropIndex database collection name =>
      [5] ++ (rawName database ++ (rawName collection ++ rawName name))

/-- A name is written as its bytes. -/
theorem encodeName_eq
    {name : JsString}
    (isName : IsName name) :
    encodeName name = .ok (rawName name) := by
  have positive := length_encode_pos isName.notEmpty
  have short := isName.short
  unfold encodeName
  simp only
  rw [if_neg (by omega)]
  rfl

/-- An operation is written as its bytes. -/
theorem encodeOperation_eq
    {operation : Operation}
    (names : ∀ name ∈ operation.names, IsName name)
    (parts : operation.HasParts)
    (fits : operation.Fits) :
    encodeOperation operation = .ok (rawOperation operation) := by
  cases operation with
  | createCollection database collection =>
      simp only [Operation.names, List.forall_mem_cons] at names
      simp [encodeOperation, rawOperation, encodeName_eq, names, pure,
        Except.pure]
  | put database collection id document =>
      simp only [Operation.names, List.forall_mem_cons] at names
      have isId : id.length = idByteLength := parts
      have small : document.length < 2 ^ 32 := fits
      simp only [Nat.reducePow] at small
      simp [encodeOperation, rawOperation, encodeName_eq, names, encodeId,
        isId, encodeBytes, writeUIntBE, small, lengthPrefixed, pure,
        Except.pure]
  | delete database collection id =>
      simp only [Operation.names, List.forall_mem_cons] at names
      have isId : id.length = idByteLength := parts
      simp [encodeOperation, rawOperation, encodeName_eq, names, encodeId,
        isId, pure, Except.pure]
  | createIndex database collection index =>
      simp only [Operation.names, List.forall_mem_cons] at names
      simp [encodeOperation, rawOperation, encodeName_eq, names,
        encodeIndexSpec, rawIndexSpec, pure, Except.pure]
  | dropIndex database collection name =>
      simp only [Operation.names, List.forall_mem_cons] at names
      simp [encodeOperation, rawOperation, encodeName_eq, names, pure,
        Except.pure]

/-- A name is read back without its byte order mark. -/
theorem reads_name
    {name : JsString}
    (isName : IsName name) :
    OperationReader.name.Reads (rawName name) (.ok (stripBom name)) := by
  have short := isName.short
  unfold maxNameByteLength at short
  exact Reader.reads_text _ _ _ (decode_encode isName.wellFormed)
    (length_encode_pos isName.notEmpty) (by omega)

/-- The flags of an index definition are one byte. -/
theorem indexFlags_lt
    (spec : IndexSpec) :
    indexFlags spec < 256 ^ 1 := by
  unfold indexFlags
  split_ifs <;> decide

/-- An index definition is read from its bytes. -/
theorem reads_indexSpec
    {ε : Type}
    {name : Reader ε JsString}
    {unexpected : ε}
    {invalid : JsString → ε}
    {spec : IndexSpec}
    {readName readField : JsString}
    (readsName : name.Reads (rawName spec.name) (.ok readName))
    (readsField : name.Reads (rawName spec.field) (.ok readField)) :
    (readIndexSpec name (Reader.uint unexpected 1) invalid).Reads
      (rawIndexSpec spec)
      (decodeIndexSpec invalid readName readField (indexFlags spec)) := by
  unfold readIndexSpec rawIndexSpec
  refine readsName.bind (readsField.bind ?_)
  exact (Reader.reads_uint unexpected (indexFlags_lt spec)).bind_nil
    (Reader.Reads.lift _)

/-- Reading the kind of an operation. -/
theorem reads_kind
    {kind : Nat}
    (small : kind < 256)
    {data : Bytes}
    {read : Nat → Reader Thrown Operation}
    {result : Except Thrown Operation}
    (reads : (read kind).Reads data result) :
    (OperationReader.uint 1 >>= read).Reads
      ([UInt8.ofNat kind] ++ data) result := by
  have digits : BigEndian.encode 1 kind = [UInt8.ofNat kind] := by
    simp [BigEndian.encode]
  have first :=
    Reader.reads_uint OperationReader.unexpectedEnd
      (by simpa using small : kind < 256 ^ 1)
  rw [digits] at first
  exact first.bind reads

/-- A written operation is read. -/
theorem reads_operation
    {operation : Operation}
    (names : ∀ name ∈ operation.names, IsName name)
    (parts : operation.HasParts)
    (fits : operation.Fits) :
    OperationReader.operation.Reads (rawOperation operation)
      (restoreOperation operation) := by
  unfold OperationReader.operation
  cases operation with
  | createCollection database collection =>
      simp only [Operation.names, List.forall_mem_cons] at names
      obtain ⟨isDatabase, isCollection, -⟩ := names
      refine reads_kind (by decide : 1 < 256) ?_
      exact (reads_name isDatabase).bind
        ((reads_name isCollection).bind_nil (.pure _))
  | put database collection id document =>
      simp only [Operation.names, List.forall_mem_cons] at names
      obtain ⟨isDatabase, isCollection, -⟩ := names
      have isId : id.length = idByteLength := parts
      have readsId := Reader.reads_bytes OperationReader.unexpectedEnd id
      rw [isId] at readsId
      have readsLength :=
        Reader.reads_uint OperationReader.unexpectedEnd
          (by simpa [Operation.Fits] using fits : document.length < 256 ^ 4)
      refine reads_kind (by decide : 2 < 256) ?_
      refine (reads_name isDatabase).bind ((reads_name isCollection).bind ?_)
      refine readsId.bind (readsLength.bind ?_)
      exact (Reader.reads_bytes _ document).bind_nil (.pure _)
  | delete database collection id =>
      simp only [Operation.names, List.forall_mem_cons] at names
      obtain ⟨isDatabase, isCollection, -⟩ := names
      have isId : id.length = idByteLength := parts
      have readsId := Reader.reads_bytes OperationReader.unexpectedEnd id
      rw [isId] at readsId
      refine reads_kind (by decide : 3 < 256) ?_
      refine (reads_name isDatabase).bind ((reads_name isCollection).bind ?_)
      exact readsId.bind_nil (.pure _)
  | createIndex database collection index =>
      simp only [Operation.names, List.forall_mem_cons] at names
      obtain ⟨isDatabase, isCollection, isIndex, isField, -⟩ := names
      have readsIndex :=
        @reads_indexSpec _ _ OperationReader.unexpectedEnd malformed _ _ _
          (reads_name isIndex) (reads_name isField)
      refine reads_kind (by decide : 4 < 256) ?_
      refine (reads_name isDatabase).bind ((reads_name isCollection).bind ?_)
      simp only [restoreOperation]
      cases restored :
          decodeIndexSpec malformed (stripBom index.name)
            (stripBom index.field) (indexFlags index) with
      | error error =>
          rw [restored] at readsIndex
          rw [← List.append_nil (rawIndexSpec index)]
          exact readsIndex.bind_error []
      | ok spec =>
          rw [restored] at readsIndex
          exact readsIndex.bind_nil (.pure _)
  | dropIndex database collection name =>
      simp only [Operation.names, List.forall_mem_cons] at names
      obtain ⟨isDatabase, isCollection, isDropped, -⟩ := names
      refine reads_kind (by decide : 5 < 256) ?_
      refine (reads_name isDatabase).bind ((reads_name isCollection).bind ?_)
      exact (reads_name isDropped).bind_nil (.pure _)

/-- What the accepted index definitions have in common. -/
structure IsIndexSpec (spec : IndexSpec) : Prop where
  field : spec.field ≠ []
  segments : (splitPath spec.field).any isReservedSegment = false
  notId : ¬ (spec.field = utf16 "_id" ∨ spec.field.take 4 = utf16 "_id.")
  name :
    ¬ (spec.name = [] ∨ maxIndexNameLength < spec.name.length ∨
      spec.name = idIndexName ∨ spec.name.any fun unit => unit.toNat < 32)

/-- An accepted definition is one. -/
theorem isIndexSpec_of_normalized
    {input : CreateIndexInput}
    {spec : IndexSpec}
    (normalizes : normalizeIndexSpec input = .ok spec) :
    IsIndexSpec spec := by
  unfold normalizeIndexSpec at normalizes
  simp only at normalizes
  split_ifs at normalizes with noField reserved isId noDirection noName
  obtain rfl := Except.ok.inj normalizes
  exact ⟨noField, by simpa using reserved, isId, noName⟩

/-- The direction that the flags stand for. -/
theorem indexFlags_descending
    (spec : IndexSpec) :
    (if indexFlags spec &&& 4 = 0 then (1 : Int) else -1) =
      if spec.descending then -1 else 1 := by
  unfold indexFlags
  cases spec.unique <;> cases spec.sparse <;> cases spec.descending <;> rfl

/-- The flag of unique indexes. -/
theorem indexFlags_unique
    (spec : IndexSpec) :
    decide (indexFlags spec &&& 1 ≠ 0) = spec.unique := by
  unfold indexFlags
  cases spec.unique <;> cases spec.sparse <;> cases spec.descending <;> rfl

/-- The flag of sparse indexes. -/
theorem indexFlags_sparse
    (spec : IndexSpec) :
    decide (indexFlags spec &&& 2 ≠ 0) = spec.sparse := by
  unfold indexFlags
  cases spec.unique <;> cases spec.sparse <;> cases spec.descending <;> rfl

/-- A definition with a direction is accepted as it is. -/
theorem normalizeIndexSpec_eq
    {spec : IndexSpec}
    (isSpec : IsIndexSpec spec)
    {direction : JsNumber}
    (isDirection :
      direction = JsNumber.ofInt 1 ∨ direction = JsNumber.ofInt (-1))
    (descends :
      decide (direction = JsNumber.ofInt (-1)) = spec.descending) :
    normalizeIndexSpec
      { name := some spec.name
        field := spec.field
        direction := some direction
        unique := some spec.unique
        sparse := some spec.sparse } = .ok spec := by
  have valid :
      ¬ (direction ≠ JsNumber.ofInt 1 ∧
        direction ≠ JsNumber.ofInt (-1)) := by
    rintro ⟨notAscending, notDescending⟩
    exact isDirection.elim notAscending notDescending
  unfold normalizeIndexSpec
  simp only [Option.getD_some]
  rw [if_neg isSpec.field, if_neg (by simp [isSpec.segments]),
    if_neg isSpec.notId, if_neg valid, if_neg isSpec.name, descends]

/-- The parts of an accepted definition are accepted again. -/
theorem decodeIndexSpec_eq
    {ε : Type}
    (invalid : JsString → ε)
    {spec : IndexSpec}
    (isSpec : IsIndexSpec spec) :
    decodeIndexSpec invalid spec.name spec.field (indexFlags spec) =
      .ok spec := by
  have directions :
      ∀ descending : Bool, ∃ direction,
        JsNumber.ofInt (if descending then -1 else 1) = direction ∧
          (direction = JsNumber.ofInt 1 ∨ direction = JsNumber.ofInt (-1)) ∧
          decide (direction = JsNumber.ofInt (-1)) = descending := by
    intro descending
    refine ⟨_, rfl, ?_⟩
    revert descending
    decide +kernel
  obtain ⟨direction, isValue, isDirection, descends⟩ :=
    directions spec.descending
  unfold decodeIndexSpec
  simp only
  rw [indexFlags_descending, isValue, indexFlags_unique, indexFlags_sparse,
    normalizeIndexSpec_eq isSpec isDirection descends]

/-- An accepted definition has the field and the name that were asked for. -/
theorem normalizeIndexSpec_names
    {input : CreateIndexInput}
    {spec : IndexSpec}
    (normalizes : normalizeIndexSpec input = .ok spec) :
    spec.field = input.field ∧
      ∀ name, input.name = some name → spec.name = name := by
  unfold normalizeIndexSpec at normalizes
  simp only at normalizes
  split_ifs at normalizes
  obtain rfl := Except.ok.inj normalizes
  refine ⟨rfl, ?_⟩
  intro name isName
  simp [isName]

/-- What is decoded has the name and the field that were read. -/
theorem decodeIndexSpec_ok
    {ε : Type}
    {invalid : JsString → ε}
    {name field : JsString}
    {flags : Nat}
    {spec : IndexSpec}
    (decodes : decodeIndexSpec invalid name field flags = .ok spec) :
    spec.name = name ∧ spec.field = field := by
  unfold decodeIndexSpec at decodes
  simp only at decodes
  split at decodes
  · rename_i result normalizes
    obtain rfl := Except.ok.inj decodes
    obtain ⟨sameField, sameName⟩ := normalizeIndexSpec_names normalizes
    exact ⟨sameName name rfl, sameField⟩
  · cases decodes

/-- An operation comes back unchanged exactly when its names do. -/
theorem restoreOperation_eq_iff
    {operation : Operation}
    (parts : operation.HasParts) :
    restoreOperation operation = .ok operation ↔ operation.Unmarked := by
  cases operation with
  | createIndex database collection index =>
      obtain ⟨input, normalizes⟩ := parts
      have isSpec := isIndexSpec_of_normalized normalizes
      simp only [Operation.Unmarked, Operation.names, List.forall_mem_cons,
        ← stripBom_eq_iff]
      constructor
      · intro restores
        obtain ⟨spec, decodes, same⟩ := Result.bind_eq_ok.mp restores
        obtain ⟨sameDatabase, sameCollection, rfl⟩ :=
          Operation.createIndex.inj (Except.ok.inj same)
        obtain ⟨sameName, sameField⟩ := decodeIndexSpec_ok decodes
        exact ⟨sameDatabase, sameCollection, sameName.symm, sameField.symm,
          by simp⟩
      · rintro ⟨sameDatabase, sameCollection, sameName, sameField, -⟩
        rw [restoreOperation, sameName, sameField, decodeIndexSpec_eq _ isSpec,
          sameDatabase, sameCollection]
        rfl
  | _ =>
      simp [restoreOperation, Operation.Unmarked, Operation.names,
        ← stripBom_eq_iff]

/-- What reading the written operations gives. -/
theorem decodeOperations_encoded
    {operations : List Operation}
    (names : ∀ operation ∈ operations, ∀ name ∈ operation.names, IsName name)
    (parts : ∀ operation ∈ operations, operation.HasParts)
    (fits : ∀ operation ∈ operations, operation.Fits)
    (few : operations.length < 2 ^ 32) :
    ∃ payload, encodeOperations operations = .ok payload ∧
      decodeOperations payload = operations.mapM restoreOperation := by
  have encodes :
      operations.mapM encodeOperation =
        .ok (operations.map rawOperation) :=
    Result.mapM_eq_ok fun operation member =>
      encodeOperation_eq (names operation member) (parts operation member)
        (fits operation member)
  have count : operations.length < 256 ^ 4 := by simpa using few
  refine ⟨BigEndian.encode 4 operations.length ++
    operations.flatMap rawOperation, ?_, ?_⟩
  · unfold encodeOperations writeUIntBE
    rw [if_pos count, encodes, List.flatMap_def]
    rfl
  · have reads :=
      (Reader.reads_uint OperationReader.unexpectedEnd count).bind
        (Reader.reads_times fun operation member =>
          reads_operation (names operation member) (parts operation member)
            (fits operation member))
    have whole := reads []
    rw [List.append_nil] at whole
    have isOutput :
        OperationReader.operations (BigEndian.encode 4 operations.length ++
            operations.flatMap rawOperation) =
          (operations.mapM restoreOperation).map (·, []) := whole
    unfold decodeOperations
    rw [isOutput]
    cases operations.mapM restoreOperation <;> rfl

/-- What could be written has a document of a length of four bytes. -/
theorem fits_of_encodeOperation
    {operation : Operation}
    {bytes : Bytes}
    (encodes : encodeOperation operation = .ok bytes) :
    operation.Fits := by
  cases operation with
  | put database collection id document =>
      obtain ⟨_, -, encodes⟩ := Result.bind_eq_ok.mp encodes
      obtain ⟨_, -, encodes⟩ := Result.bind_eq_ok.mp encodes
      obtain ⟨_, -, encodes⟩ := Result.bind_eq_ok.mp encodes
      obtain ⟨_, encodes, -⟩ := Result.bind_eq_ok.mp encodes
      obtain ⟨_, writes, -⟩ := Result.bind_eq_ok.mp encodes
      unfold writeUIntBE at writes
      split_ifs at writes with small
      simpa [Operation.Fits] using small
  | _ =>
      trivial

/-- Operations come back unchanged exactly when no name in them starts with a
byte order mark and their number and documents have a length of four bytes. -/
theorem decode_encode_operations_iff
    {operations : List Operation}
    (names : ∀ operation ∈ operations, ∀ name ∈ operation.names, IsName name)
    (parts : ∀ operation ∈ operations, operation.HasParts) :
    (∃ payload, encodeOperations operations = .ok payload ∧
        decodeOperations payload = .ok operations) ↔
      (∀ operation ∈ operations, operation.Unmarked) ∧
        (∀ operation ∈ operations, operation.Fits) ∧
        operations.length < 2 ^ 32 := by
  constructor
  · rintro ⟨payload, encodes, decodes⟩
    have few : operations.length < 2 ^ 32 := by
      by_contra many
      rw [encodeOperations, writeUIntBE, if_neg (by simpa using many)] at encodes
      cases encodes
    have fits : ∀ operation ∈ operations, operation.Fits := by
      obtain ⟨_, -, rest⟩ := Result.bind_eq_ok.mp encodes
      obtain ⟨parts, encodesAll, -⟩ := Result.bind_eq_ok.mp rest
      intro operation member
      obtain ⟨bytes, -, encodesOne⟩ :=
        Lists.exists_of_mem_left (Result.forall₂_of_mapM encodesAll) member
      exact fits_of_encodeOperation encodesOne
    obtain ⟨written, isWritten, isRead⟩ :=
      decodeOperations_encoded names parts fits few
    obtain rfl := Except.ok.inj (isWritten.symm.trans encodes)
    rw [decodes] at isRead
    refine ⟨?_, fits, few⟩
    intro operation member
    exact (restoreOperation_eq_iff (parts operation member)).mp
      (Result.mapM_eq_self_iff.mp isRead.symm operation member)
  · rintro ⟨unmarked, fits, few⟩
    obtain ⟨payload, encodes, decodes⟩ :=
      decodeOperations_encoded names parts fits few
    refine ⟨payload, encodes, ?_⟩
    rw [decodes, Result.mapM_eq_self_iff]
    intro operation member
    exact (restoreOperation_eq_iff (parts operation member)).mpr
      (unmarked operation member)

/-- The record of a new index. -/
def indexRecord : List Operation :=
  [.createCollection (utf16 "shop") (utf16 "items"),
    .createIndex (utf16 "shop") (utf16 "items")
      ⟨utf16 "price_1", utf16 "price", false, true, false⟩]

/-- The record of a new index comes back. -/
theorem decode_encode_operations_index :
    ∃ payload, encodeOperations indexRecord = .ok payload ∧
      decodeOperations payload = .ok indexRecord := by
  refine (decode_encode_operations_iff (by decide +kernel) ?_).mpr
    ⟨by decide +kernel, by simp [indexRecord, Operation.Fits], by decide⟩
  intro operation member
  rcases List.mem_cons.mp member with rfl | member
  · trivial
  · obtain rfl := List.mem_singleton.mp member
    exact ⟨{ field := utf16 "price", unique := some true }, by decide +kernel⟩

/-- A database whose name starts with a byte order mark comes back under
another name. -/
theorem decode_encode_operations_marked :
    ∃ operations : List Operation,
      (∀ operation ∈ operations,
        (∀ name ∈ operation.names, IsName name) ∧ operation.HasParts) ∧
      ¬ ∃ payload, encodeOperations operations = .ok payload ∧
        decodeOperations payload = .ok operations := by
  refine ⟨[.createCollection (0xFEFF :: utf16 "shop") (utf16 "items")],
    ?_, ?_⟩
  · intro operation member
    obtain rfl := List.mem_singleton.mp member
    exact ⟨by decide +kernel, trivial⟩
  · have isOther :
        (encodeOperations
            [.createCollection (0xFEFF :: utf16 "shop") (utf16 "items")] >>=
          decodeOperations) =
            .ok [.createCollection (utf16 "shop") (utf16 "items")] := by
      decide +kernel
    rintro ⟨payload, encodes, decodes⟩
    rw [encodes, Result.ok_bind, decodes] at isOther
    revert isOther
    decide +kernel

end SinterDb
