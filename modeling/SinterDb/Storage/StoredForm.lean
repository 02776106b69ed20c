import SinterDb.Protocol.Restored
import SinterDb.Storage.Collection
import SinterDb.Storage.ValueOrder

namespace SinterDb

open Unicode

/-!
# The form of stored documents

Every stored document is the encoding of a document with an id, under the
hexadecimal form of that id.  Updates never touch the id.
-/

namespace Document

/-- A key is an own key when it has a value. -/
theorem hasOwn_eq_isSome
    (document : Document)
    (key : JsString) :
    Document.hasOwn document key = (Document.get? document key).isSome := by
  rw [Bool.eq_iff_iff, Document.get?, Option.isSome_map, List.find?_isSome,
    Document.hasOwn, List.any_eq_true]

/-- The fields after defining a new one. -/
theorem get?_define
    {document : Document}
    {key : JsString}
    (absent : Document.hasOwn document key = false)
    (value : DocumentValue)
    (other : JsString) :
    Document.get? (Document.define document key value) other =
      if other = key then some value else Document.get? document other := by
  have none : ∀ field ∈ document, ¬ (field.1 == key) = true :=
    fun field member isKey =>
      Bool.false_ne_true (absent.symm.trans
        (List.any_eq_true.mpr ⟨field, member, isKey⟩))
  have split :
      ∀ before behind : Document, document = before ++ behind →
        Document.get? (before ++ (key, value) :: behind) other =
          if other = key then some value
          else Document.get? document other := by
    rintro before behind rfl
    unfold Document.get?
    rw [List.find?_append, List.find?_cons]
    split_ifs with same
    · subst same
      have notBefore :
          (before.find? fun field => field.1 == other) = .none :=
        List.find?_eq_none.mpr fun field member =>
          none field (List.mem_append_left _ member)
      simp [notBefore]
    · have different : (key == other) = false :=
        beq_eq_false_iff_ne.mpr (Ne.symm same)
      simp [different, List.find?_append]
  unfold Document.define
  split
  · simpa using split document [] (by simp)
  · exact split _ _ List.takeWhile_append_dropWhile.symm

/-- The fields after an assignment. -/
theorem get?_set
    (document : Document)
    (key : JsString)
    (value : DocumentValue)
    (other : JsString) :
    Document.get? (Document.set document key value) other =
      if other = key then some value else Document.get? document other := by
  unfold Document.set
  split_ifs with present same same
  · subst same
    induction document with
    | nil =>
        cases present
    | cons field rest inductionHypothesis =>
        by_cases isKey : field.1 = other
        · simp [Document.get?, isKey]
        · have inRest : Document.hasOwn rest other = true := by
            simpa [Document.hasOwn, isKey] using present
          have later := inductionHypothesis inRest
          simpa [Document.get?, isKey] using later
  · unfold Document.get?
    rw [List.find?_map]
    have sameTest :
        (fun field : JsString × DocumentValue => field.1 == other) ∘
            (fun field =>
              if field.1 == key then (field.1, value) else field) =
          fun field => field.1 == other := by
      funext field
      simp only [Function.comp_apply]
      split_ifs <;> rfl
    rw [sameTest, Option.map_map]
    cases found : document.find? fun field => field.1 == other with
    | none =>
        rfl
    | some field =>
        have isOther : field.1 = other := by
          simpa using List.find?_some found
        have notKey : field.1 ≠ key := isOther ▸ same
        simp [notKey]
  · rw [get?_define (by simpa using present), if_pos same]
  · rw [get?_define (by simpa using present), if_neg same]

/-- The other fields after deleting one. -/
theorem get?_erase_of_ne
    (document : Document)
    {key other : JsString}
    (different : other ≠ key) :
    Document.get? (Document.erase document key) other =
      Document.get? document other := by
  unfold Document.get? Document.erase
  rw [List.find?_filter]
  congr 2
  funext field
  by_cases isOther : field.1 = other
  · simp [isOther, different]
  · simp [isOther]

end Document

section Updates

variable
  {document changed : Document}
  {other : JsString}

/-- A filter with a test that may fail keeps items that pass it. -/
theorem of_mem_filterM
    {items kept : List DocumentValue}
    {test : DocumentValue → Except Thrown Bool}
    (filters : items.filterM test = .ok kept)
    {item : DocumentValue}
    (member : item ∈ kept) :
    item ∈ items ∧ test item = .ok true := by
  have collected :
      ∀ {items before after : List DocumentValue},
        items.filterAuxM test before = .ok after →
          item ∈ after →
            item ∈ items ∧ test item = .ok true ∨ item ∈ before := by
    intro items
    induction items with
    | nil =>
        intro before after filters isAfter
        obtain rfl := Except.ok.inj filters
        exact .inr isAfter
    | cons first items inductionHypothesis =>
        intro before after filters isAfter
        rw [List.filterAuxM] at filters
        obtain ⟨passes, isPassed, filters⟩ := Result.bind_eq_ok.mp filters
        obtain later | earlier := inductionHypothesis filters isAfter
        · exact .inl ⟨List.mem_cons_of_mem _ later.1, later.2⟩
        · cases passes with
          | false =>
              exact .inr earlier
          | true =>
              obtain rfl | earlier := List.mem_cons.mp earlier
              · exact .inl ⟨List.mem_cons_self, isPassed⟩
              · exact .inr earlier
  obtain ⟨reversed, collects, same⟩ := Result.bind_eq_ok.mp filters
  obtain rfl := Except.ok.inj same
  obtain inside | none := collected collects (List.mem_reverse.mp member)
  · exact inside
  · cases none

/-- What an instruction may assign to a field with the given value. -/
inductive NewValue
    (operand : DocumentValue)
    (current : Option DocumentValue) : DocumentValue → Prop where
  | operand : NewValue operand current operand
  | number (value : JsNumber) : NewValue operand current (.number value)
  | bigint (value : Int) : NewValue operand current (.bigint value)
  | array
      (items : List DocumentValue)
      (each :
        ∀ item ∈ items,
          item = operand ∨
            ∃ old, current = some (.array old) ∧ item ∈ old) :
      NewValue operand current (.array items)

/-- An item of the array that a field is taken as is in its array. -/
theorem getArray_ok
    {key path : JsString}
    {items : Option (List DocumentValue)}
    (gets : getArray document key path = .ok items)
    {item : DocumentValue}
    (member : item ∈ items.getD []) :
    ∃ old, Document.get? document key = some (.array old) ∧ item ∈ old := by
  unfold getArray at gets
  split at gets
  · obtain rfl := Except.ok.inj gets
    cases member
  · rename_i array found
    obtain rfl := Except.ok.inj gets
    exact ⟨array, found, member⟩
  · cases gets

/-- What can be done to the parent of a path. -/
theorem applyToParent_cases
    {instruction : Instruction}
    {key : JsString}
    (applies : applyToParent instruction key document = .ok changed) :
    changed = document ∨
      changed = Document.erase document key ∨
      ∃ value,
        NewValue instruction.operand (Document.get? document key) value ∧
          changed = Document.set document key value := by
  have assigned :
      ∀ value,
        NewValue instruction.operand (Document.get? document key) value →
        Except.ok (Document.set document key value) =
            (Except.ok changed : Except Thrown Document) →
          changed = document ∨
            changed = Document.erase document key ∨
            ∃ value,
              NewValue instruction.operand (Document.get? document key)
                  value ∧
                changed = Document.set document key value := by
    intro value new same
    exact .inr (.inr ⟨value, new, (Except.ok.inj same).symm⟩)
  have extremum :
      ∀ replaces,
        Except.ok
            (applyExtremum document key instruction.operand replaces) =
            (Except.ok changed : Except Thrown Document) →
          changed = document ∨
            changed = Document.erase document key ∨
            ∃ value,
              NewValue instruction.operand (Document.get? document key)
                  value ∧
                changed = Document.set document key value := by
    intro replaces applies
    unfold applyExtremum at applies
    split at applies
    · exact assigned _ .operand applies
    · split_ifs at applies
      · exact assigned _ .operand applies
      · exact .inl (Except.ok.inj applies).symm
  unfold applyToParent at applies
  simp only at applies
  split at applies
  · exact assigned _ .operand applies
  · exact .inr (.inl (Except.ok.inj applies).symm)
  · unfold applyInc at applies
    split at applies
    · exact assigned _ .operand applies
    · split at applies
      · simp only at applies
        split_ifs at applies
        exact assigned _ (.number _) applies
      · exact assigned _ (.bigint _) applies
      · cases applies
  · exact extremum .lt applies
  · exact extremum .gt applies
  · obtain ⟨items, gets, applies⟩ := Result.bind_eq_ok.mp applies
    refine assigned _ (.array _ ?_) applies
    intro item member
    obtain old | new := List.mem_append.mp member
    · exact .inr (getArray_ok gets old)
    · exact .inl (List.mem_singleton.mp new)
  · obtain ⟨items, gets, applies⟩ := Result.bind_eq_ok.mp applies
    obtain ⟨found, -, applies⟩ := Result.bind_eq_ok.mp applies
    split_ifs at applies
    · refine assigned _ (.array _ ?_) applies
      intro item member
      exact .inr (getArray_ok gets member)
    · refine assigned _ (.array _ ?_) applies
      intro item member
      obtain old | new := List.mem_append.mp member
      · exact .inr (getArray_ok gets old)
      · exact .inl (List.mem_singleton.mp new)
  · obtain ⟨items, gets, applies⟩ := Result.bind_eq_ok.mp applies
    split at applies
    · exact .inl (Except.ok.inj applies).symm
    · exact .inl (Except.ok.inj applies).symm
    · obtain ⟨kept, filters, applies⟩ := Result.bind_eq_ok.mp applies
      refine assigned _ (.array _ ?_) applies
      intro item member
      exact .inr (getArray_ok gets (of_mem_filterM filters member).1)

/-- What is done to the parent of a path keeps fields with other keys. -/
theorem applyToParent_get?
    {instruction : Instruction}
    {key : JsString}
    (applies : applyToParent instruction key document = .ok changed)
    (different : other ≠ key) :
    Document.get? changed other = Document.get? document other := by
  obtain rfl | rfl | ⟨value, -, rfl⟩ := applyToParent_cases applies
  · rfl
  · exact Document.get?_erase_of_ne _ different
  · rw [Document.get?_set, if_neg different]

/-- A change at a path keeps the fields that the path does not start with. -/
theorem changeParent_get?
    {create : Bool}
    {change : JsString → Document → Except Thrown Document}
    (keeps :
      ∀ key document changed, change key document = .ok changed →
        other ≠ key →
        Document.get? changed other = Document.get? document other)
    {walked path : List JsString}
    (changes : changeParent create change walked path document = .ok changed)
    (different : path.head? ≠ some other) :
    Document.get? changed other = Document.get? document other := by
  unfold changeParent at changes
  split at changes
  · obtain rfl := Except.ok.inj changes
    rfl
  · rename_i key
    exact keeps key document changed changes
      fun same => different (by simp [same])
  · rename_i segment rest _
    have notSegment : other ≠ segment := fun same => different (by simp [same])
    simp only at changes
    split at changes
    · split_ifs at changes
      · obtain ⟨inner, -, same⟩ := Result.bind_eq_ok.mp changes
        obtain rfl := Except.ok.inj same
        rw [Document.get?_set, if_neg notSegment]
      · obtain rfl := Except.ok.inj changes
        rfl
    · obtain ⟨inner, -, same⟩ := Result.bind_eq_ok.mp changes
      obtain rfl := Except.ok.inj same
      rw [Document.get?_set, if_neg notSegment]
    · split_ifs at changes
      obtain rfl := Except.ok.inj changes
      rfl

/-- One instruction keeps the fields that its path does not start with. -/
theorem applyInstruction_get?
    {instruction : Instruction}
    (applies : applyInstruction document instruction = .ok changed)
    (different : instruction.segments.head? ≠ some other) :
    Document.get? changed other = Document.get? document other :=
  changeParent_get? (fun _ _ _ => applyToParent_get?) applies different

/-- A valid operand is used as it is. -/
theorem validateOperand_eq
    {operator : UpdateOperator}
    {path : JsString}
    {operand valid : DocumentValue}
    (validates : validateOperand operator path operand = .ok valid) :
    valid = operand := by
  unfold validateOperand at validates
  simp only at validates
  split at validates <;> try cases validates
  · rfl
  · split_ifs at validates
    exact (Except.ok.inj validates).symm
  · rfl

/-- The paths of an operator are the ones of its operands. -/
theorem parseOperands_mem
    {operator : UpdateOperator}
    {operands : Document}
    {instructions : List Instruction}
    (parses : parseOperands operator operands = .ok instructions) :
    ∀ instruction ∈ instructions,
      parsePath instruction.path operator.name = .ok instruction.segments ∧
        (instruction.path, instruction.operand) ∈ operands := by
  induction operands generalizing instructions with
  | nil =>
      obtain rfl := Except.ok.inj parses
      simp
  | cons field rest inductionHypothesis =>
      obtain ⟨path, operand⟩ := field
      rw [parseOperands] at parses
      obtain ⟨segments, isPath, parses⟩ := Result.bind_eq_ok.mp parses
      obtain ⟨valid, isOperand, parses⟩ := Result.bind_eq_ok.mp parses
      obtain ⟨later, parsesRest, same⟩ := Result.bind_eq_ok.mp parses
      obtain rfl := Except.ok.inj same
      obtain rfl : valid = operand := validateOperand_eq isOperand
      rw [List.forall_mem_cons]
      refine ⟨⟨isPath, List.mem_cons_self⟩, ?_⟩
      intro instruction member
      obtain ⟨isPath, isField⟩ :=
        inductionHypothesis parsesRest instruction member
      exact ⟨isPath, List.mem_cons_of_mem _ isField⟩

/-- The instructions of an operator carry it. -/
theorem parseOperands_operator
    {operator : UpdateOperator}
    {operands : Document}
    {instructions : List Instruction}
    (parses : parseOperands operator operands = .ok instructions) :
    ∀ instruction ∈ instructions, instruction.operator = operator := by
  induction operands generalizing instructions with
  | nil =>
      obtain rfl := Except.ok.inj parses
      simp
  | cons field rest inductionHypothesis =>
      rw [parseOperands] at parses
      obtain ⟨segments, -, parses⟩ := Result.bind_eq_ok.mp parses
      obtain ⟨valid, -, parses⟩ := Result.bind_eq_ok.mp parses
      obtain ⟨later, parsesRest, same⟩ := Result.bind_eq_ok.mp parses
      obtain rfl := Except.ok.inj same
      rw [List.forall_mem_cons]
      exact ⟨rfl, inductionHypothesis parsesRest⟩

/-- A parsed path is split at its dots and does not start with the id. -/
theorem parsePath_ok
    {path operator : JsString}
    {segments : List JsString}
    (parses : parsePath path operator = .ok segments) :
    segments = splitPath path ∧
      (∀ segment ∈ segments, isReservedSegment segment = false) ∧
      segments.head? ≠ some idField := by
  unfold parsePath at parses
  split_ifs at parses with reserved isId
  obtain rfl := Except.ok.inj parses
  refine ⟨rfl, ?_, isId⟩
  intro segment member
  by_contra isReserved
  exact reserved (List.any_eq_true.mpr ⟨segment, member, by simpa using isReserved⟩)

/-- Where the instructions of an update come from. -/
theorem parseOperators_mem
    {update : Document}
    {instructions : List Instruction}
    (parses : parseOperators update = .ok instructions) :
    ∀ instruction ∈ instructions,
      parsePath instruction.path instruction.operator.name =
          .ok instruction.segments ∧
        ∃ name operands, (name, .document operands) ∈ update ∧
          (instruction.path, instruction.operand) ∈ operands := by
  induction update generalizing instructions with
  | nil =>
      obtain rfl := Except.ok.inj parses
      simp
  | cons field rest inductionHypothesis =>
      obtain ⟨name, operands⟩ := field
      rw [parseOperators] at parses
      obtain ⟨first, parsesFirst, parses⟩ := Result.bind_eq_ok.mp parses
      obtain ⟨later, parsesRest, same⟩ := Result.bind_eq_ok.mp parses
      obtain rfl := Except.ok.inj same
      intro instruction member
      rcases List.mem_append.mp member with inFirst | inLater
      · unfold parseOperator at parsesFirst
        split at parsesFirst
        · cases parsesFirst
        · split at parsesFirst
          · obtain ⟨isPath, isOperand⟩ :=
              parseOperands_mem parsesFirst instruction inFirst
            have isOperator := parseOperands_operator parsesFirst instruction
              inFirst
            rw [isOperator]
            exact ⟨isPath, name, _, List.mem_cons_self, isOperand⟩
          · cases parsesFirst
      · obtain ⟨isPath, name, operands, isField, isOperand⟩ :=
          inductionHypothesis parsesRest instruction inLater
        exact ⟨isPath, name, operands, List.mem_cons_of_mem _ isField,
          isOperand⟩

/-- A compiled update applies the instructions of its document. -/
theorem compileUpdate_ok
    {update : Document}
    {apply : CompiledUpdate}
    (compiles : compileUpdate update = .ok apply) :
    ∃ instructions, parseOperators update = .ok instructions ∧
      apply = fun document => instructions.foldlM applyInstruction document := by
  obtain ⟨instructions, parses, same⟩ := Result.bind_eq_ok.mp compiles
  unfold parseUpdate at parses
  split_ifs at parses
  · cases parses
  · obtain ⟨parsed, isParsed, parses⟩ := Result.bind_eq_ok.mp parses
    obtain ⟨_, _, isInstructions⟩ := Result.bind_eq_ok.mp parses
    obtain rfl := Except.ok.inj isInstructions
    exact ⟨parsed, isParsed, (Except.ok.inj same).symm⟩

/-- Updates never touch the id. -/
theorem compileUpdate_keeps_id
    {update : Document}
    {apply : CompiledUpdate}
    (compiles : compileUpdate update = .ok apply)
    (applies : apply document = .ok changed) :
    Document.get? changed idField = Document.get? document idField := by
  obtain ⟨instructions, parses, rfl⟩ := compileUpdate_ok compiles
  have paths :
      ∀ instruction ∈ instructions,
        instruction.segments.head? ≠ some idField := fun instruction member =>
    (parsePath_ok (parseOperators_mem parses instruction member).1).2.2
  clear parses compiles
  simp only at applies
  induction instructions generalizing document with
  | nil =>
      obtain rfl := Except.ok.inj applies
      rfl
  | cons instruction rest inductionHypothesis =>
      rw [List.forall_mem_cons] at paths
      rw [List.foldlM_cons] at applies
      obtain ⟨next, step, applies⟩ := Result.bind_eq_ok.mp applies
      rw [inductionHypothesis applies paths.2,
        applyInstruction_get? step paths.1]

end Updates

/-- The bytes are the encoding of a document whose id has the given key. -/
def StoredAs (key : JsString) (encoded : Bytes) : Prop :=
  ∃ document id, encodeDocument document = .ok encoded ∧
    Document.get? document idField = some (.customId id) ∧
    id.toHexString = key

/-- A value inside a document that has a key has one, too. -/
theorem hasKey_of_mem
    {fields : Document}
    (hasKey : (DocumentValue.document fields).HasKey)
    {field : JsString × DocumentValue}
    (member : field ∈ fields) :
    field.2.HasKey := by
  rw [hasKey_iff] at hasKey ⊢
  obtain ⟨⟨writable, shallow⟩, fits⟩ := hasKey
  have inside :=
    ((DocumentValue.allNodes_document _ fields).mp writable).2 field member
  have lower := DocumentValue.height_document_le.mp shallow field member
  rw [DocumentValue.length_raw_document] at fits
  have part :=
    List.single_le_sum (fun _ _ => Nat.zero_le _) _
      (List.mem_map_of_mem (f := fun field => (rawField field).length) member)
  have shorter : field.2.raw.length ≤ (rawField field).length := by
    simp [rawField]
  exact ⟨⟨inside, by omega⟩, by omega⟩

/-- A value at a path of a document that has a key has one, too. -/
theorem hasKey_of_resolveField
    {document : Document}
    {path : List JsString}
    {value : DocumentValue}
    (hasKey : (DocumentValue.document document).HasKey)
    (found : resolveField document path = some value) :
    value.HasKey := by
  induction path generalizing document with
  | nil =>
      cases found
  | cons segment rest inductionHypothesis =>
      cases rest with
      | nil =>
          exact hasKey_of_mem hasKey (Document.mem_of_get? found)
      | cons next rest =>
          rw [resolveField] at found
          · split at found
            · rename_i inner isInner
              exact inductionHypothesis
                (hasKey_of_mem hasKey (Document.mem_of_get? isInner)) found
            · cases found
          · simp

/-- What decoding the encoding of a document gives. -/
theorem decodeDocument_of_encoded
    {document decoded : Document}
    {encoded : Bytes}
    (encodes : encodeDocument document = .ok encoded)
    (decodes : decodeDocument encoded = .ok decoded) :
    (DocumentValue.document document).restore = .ok (.document decoded) := by
  obtain ⟨encodable, fits, rfl⟩ := encodeDocumentValue_ok.mp encodes
  obtain ⟨value, isValue, decodes⟩ := Result.bind_eq_ok.mp decodes
  rw [decodeDocumentValue_raw encodable fits] at isValue
  rw [isValue]
  split at decodes
  · rw [Except.ok.inj decodes]
  · cases decodes

/-- A decoded document can be encoded again. -/
theorem hasKey_of_decoded
    {document decoded : Document}
    {encoded : Bytes}
    (encodes : encodeDocument document = .ok encoded)
    (decodes : decodeDocument encoded = .ok decoded) :
    (DocumentValue.document decoded).HasKey := by
  have restores := decodeDocument_of_encoded encodes decodes
  obtain ⟨encodable, fits, rfl⟩ := encodeDocumentValue_ok.mp encodes
  have within := DocumentValue.restoresWithin encodable.1 restores
  exact hasKey_iff.mpr
    ⟨⟨within.writable, le_trans within.height encodable.2⟩,
      le_trans within.length fits⟩

/-- The id of a decoded document is the one that was encoded. -/
theorem decoded_id
    {document decoded : Document}
    {id : CustomId}
    (restores :
      (DocumentValue.document document).restore = .ok (.document decoded))
    (hasId : Document.get? document idField = some (.customId id)) :
    Document.get? decoded idField = some (.customId id) := by
  obtain ⟨built, restored, same, distinct, results, reordered⟩ :=
    DocumentValue.restore_document_ok restores
  obtain rfl := DocumentValue.document.inj same
  have inSorted :=
    (sortFields_perm document).mem_iff.mpr (Document.mem_of_get? hasId)
  obtain ⟨result, inRestored, key, value⟩ :=
    Lists.exists_of_mem_left results inSorted
  rw [DocumentValue.restore] at value
  · obtain ⟨resultKey, resultValue⟩ := result
    obtain rfl : resultKey = idField := key
    obtain rfl := Except.ok.inj value
    exact Document.get?_of_mem distinct (reordered.mem_iff.mpr inRestored)
  all_goals simp

/-- What can be read from a stored document. -/
theorem StoredAs.decoded
    {key : JsString}
    {encoded : Bytes}
    (stored : StoredAs key encoded)
    {document : Document}
    (decodes : decodeDocument encoded = .ok document) :
    (DocumentValue.document document).HasKey ∧
      ∃ id, Document.get? document idField = some (.customId id) ∧
        id.toHexString = key := by
  obtain ⟨source, id, encodes, hasId, isKey⟩ := stored
  exact ⟨hasKey_of_decoded encodes decodes, id,
    decoded_id (decodeDocument_of_encoded encodes decodes) hasId, isKey⟩

end SinterDb
