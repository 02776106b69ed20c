import SinterDb.Storage.UpdateOrder

namespace SinterDb

open Unicode Commuting

/-!
# Updates in any order

An accepted update gives documents with the same encoding in every order of its
instructions, or fails in every order.
-/

/-- The keys are distinct in a document and in all values inside. -/
theorem distinctKeys_document
    {document : Document} :
    (DocumentValue.document document).DistinctKeys ↔
      (document.map Prod.fst).Nodup ∧
        ∀ field ∈ document, field.2.DistinctKeys := by
  rw [DocumentValue.DistinctKeys, DocumentValue.allNodes_document]
  simp [DocumentValue.hasDistinctKeys, DocumentValue.DistinctKeys]

/-- The keys are distinct in all items of an array. -/
theorem distinctKeys_array
    {items : List DocumentValue} :
    (DocumentValue.array items).DistinctKeys ↔
      ∀ item ∈ items, item.DistinctKeys := by
  rw [DocumentValue.DistinctKeys, DocumentValue.allNodes_array]
  simp [DocumentValue.hasDistinctKeys, DocumentValue.DistinctKeys]

/-- Assigning a value with distinct keys leaves distinct keys. -/
theorem distinctKeys_set
    {document : Document}
    (distinct : (DocumentValue.document document).DistinctKeys)
    (key : JsString)
    {value : DocumentValue}
    (valueDistinct : value.DistinctKeys) :
    (DocumentValue.document
      (Document.set document key value)).DistinctKeys := by
  rw [distinctKeys_document] at distinct ⊢
  obtain ⟨keys, inside⟩ := distinct
  unfold Document.set
  split_ifs with present
  · constructor
    · have sameKeys :
          (document.map fun field =>
            if field.1 == key then (field.1, value) else field).map Prod.fst =
          document.map Prod.fst := by
        rw [List.map_map]
        refine List.map_congr_left fun field _ => ?_
        simp only [Function.comp_apply]
        split_ifs <;> rfl
      rw [sameKeys]
      exact keys
    · intro field member
      obtain ⟨old, isOld, rfl⟩ := List.mem_map.mp member
      split_ifs
      · exact valueDistinct
      · exact inside old isOld
  · have added := define_perm document key value
    rw [hasOwn_iff] at present
    constructor
    · rw [(added.map Prod.fst).nodup_iff, List.map_append, List.nodup_append]
      refine ⟨keys, by simp, ?_⟩
      intro old inDocument new isNew same
      simp only [List.map_cons, List.map_nil, List.mem_singleton] at isNew
      exact present (isNew ▸ same ▸ inDocument)
    · intro field member
      rcases List.mem_append.mp (added.mem_iff.mp member) with old | new
      · exact inside field old
      · obtain rfl := List.mem_singleton.mp new
        exact valueDistinct

/-- Deleting a field leaves distinct keys. -/
theorem distinctKeys_erase
    {document : Document}
    (distinct : (DocumentValue.document document).DistinctKeys)
    (key : JsString) :
    (DocumentValue.document (Document.erase document key)).DistinctKeys := by
  rw [distinctKeys_document] at distinct ⊢
  refine ⟨(List.filter_sublist.map Prod.fst).nodup distinct.1, ?_⟩
  intro field member
  exact distinct.2 field (List.mem_of_mem_filter member)

/-- A value that is found has distinct keys. -/
theorem distinctKeys_get?
    {document : Document}
    (distinct : (DocumentValue.document document).DistinctKeys)
    {key : JsString}
    {value : DocumentValue}
    (found : Document.get? document key = some value) :
    value.DistinctKeys :=
  (distinctKeys_document.mp distinct).2 _ (Document.mem_of_get? found)

/-- What is done to the parent of a path leaves distinct keys. -/
theorem applyToParent_distinctKeys
    {instruction : Instruction}
    (operandDistinct : instruction.operand.DistinctKeys)
    {key : JsString}
    {document changed : Document}
    (distinct : (DocumentValue.document document).DistinctKeys)
    (applies : applyToParent instruction key document = .ok changed) :
    (DocumentValue.document changed).DistinctKeys := by
  obtain rfl | rfl | ⟨value, new, rfl⟩ := applyToParent_cases applies
  · exact distinct
  · exact distinctKeys_erase distinct key
  · refine distinctKeys_set distinct key ?_
    cases new with
    | operand =>
        exact operandDistinct
    | number =>
        rfl
    | bigint =>
        rfl
    | array items each =>
        rw [distinctKeys_array]
        intro item member
        obtain rfl | ⟨old, found, isOld⟩ := each item member
        · exact operandDistinct
        · exact distinctKeys_array.mp (distinctKeys_get? distinct found) item
            isOld

/-- A change at a path leaves distinct keys when its target does. -/
theorem changeParent_distinctKeys
    {create : Bool}
    {change : JsString → Document → Except Thrown Document}
    (keeps :
      ∀ key document changed,
        (DocumentValue.document document).DistinctKeys →
        change key document = .ok changed →
        (DocumentValue.document changed).DistinctKeys)
    {walked path : List JsString}
    {document changed : Document}
    (distinct : (DocumentValue.document document).DistinctKeys)
    (changes : changeParent create change walked path document = .ok changed) :
    (DocumentValue.document changed).DistinctKeys := by
  induction path generalizing walked document changed with
  | nil =>
      obtain rfl := Except.ok.inj changes
      exact distinct
  | cons segment rest inductionHypothesis =>
      cases rest with
      | nil =>
          exact keeps segment document changed distinct changes
      | cons second rest =>
          obtain rfl | ⟨before, inner, inside, changesInside, rfl⟩ :=
            changeParent_cases changes
          · exact distinct
          · refine distinctKeys_set distinct segment
              (inductionHypothesis ?_ changesInside)
            obtain found | ⟨-, rfl⟩ := inside
            · exact distinctKeys_get? distinct found
            · rfl

/-- Instructions leave distinct keys. -/
theorem foldlM_distinctKeys
    {instructions : List Instruction}
    (operands :
      ∀ instruction ∈ instructions, instruction.operand.DistinctKeys)
    {document changed : Document}
    (distinct : (DocumentValue.document document).DistinctKeys)
    (applies : instructions.foldlM applyInstruction document = .ok changed) :
    (DocumentValue.document changed).DistinctKeys := by
  induction instructions generalizing document with
  | nil =>
      obtain rfl := Except.ok.inj applies
      exact distinct
  | cons instruction rest inductionHypothesis =>
      rw [List.forall_mem_cons] at operands
      rw [List.foldlM_cons] at applies
      obtain ⟨next, step, applies⟩ := Result.bind_eq_ok.mp applies
      refine inductionHypothesis operands.2 ?_ applies
      exact changeParent_distinctKeys
        (fun _ _ _ => applyToParent_distinctKeys operands.1) distinct step

/-- A field on one side has its counterpart on the other. -/
theorem exists_counterpart
    {left right : Document}
    (distinct : (left.map Prod.fst).Nodup)
    (keys :
      ∀ key,
        Document.get? left key = none ↔ Document.get? right key = none)
    {field : JsString × DocumentValue}
    (member : field ∈ left) :
    Document.get? left field.1 = some field.2 ∧
      ∃ other,
        Document.get? right field.1 = some other ∧
          (field.1, other) ∈ right := by
  have found : Document.get? left field.1 = some field.2 :=
    Document.get?_of_mem distinct member
  refine ⟨found, ?_⟩
  cases isOther : Document.get? right field.1 with
  | none =>
      rw [(keys field.1).mpr isOther] at found
      cases found
  | some other =>
      exact ⟨other, rfl, Document.mem_of_get? isOther⟩

/-- A reordered value can be encoded when the value can, to the same bytes. -/
theorem Reordered.encoding
    {left right : DocumentValue}
    (same : Reordered left right)
    (leftDistinct : left.DistinctKeys)
    (rightDistinct : right.DistinctKeys)
    (writable : left.Writable) :
    right.Writable ∧ right.height ≤ left.height ∧ left.raw = right.raw := by
  induction same with
  | refl value =>
      exact ⟨writable, Nat.le_refl _, rfl⟩
  | @document left right keys values inductionHypothesis =>
      rw [distinctKeys_document] at leftDistinct rightDistinct
      obtain ⟨wellFormed, inside⟩ :=
        (DocumentValue.allNodes_document _ left).mp writable
      have wellFormed := List.all_eq_true.mp wellFormed
      have paired :
          ∀ field ∈ left, ∀ other,
            Document.get? right field.1 = some other →
            other.Writable ∧ other.height ≤ field.2.height ∧
              field.2.raw = other.raw := by
        intro field member other isOther
        exact inductionHypothesis field.1 field.2 other
          (Document.get?_of_mem leftDistinct.1 member) isOther
          (leftDistinct.2 field member)
          (rightDistinct.2 _ (Document.mem_of_get? isOther))
          (inside field member)
      have fromRight :
          ∀ field ∈ right, ∃ other,
            (field.1, other) ∈ left ∧ field.2.Writable ∧
              field.2.height ≤ other.height := by
        intro field member
        obtain ⟨found, other, -, inLeft⟩ :=
          exists_counterpart rightDistinct.1 (fun key => (keys key).symm)
            member
        have pair := paired _ inLeft field.2 found
        exact ⟨other, inLeft, pair.1, pair.2.1⟩
      have sameKeys :
          (left.map Prod.fst).Perm (right.map Prod.fst) := by
        rw [List.perm_ext_iff_of_nodup leftDistinct.1 rightDistinct.1]
        intro key
        rw [← hasOwn_iff, ← hasOwn_iff, Document.hasOwn_eq_isSome,
          Document.hasOwn_eq_isSome, Option.isSome_iff_ne_none,
          Option.isSome_iff_ne_none, not_iff_not]
        exact keys key
      refine ⟨?_, ?_, ?_⟩
      · refine (DocumentValue.allNodes_document _ right).mpr ⟨?_, ?_⟩
        · refine List.all_eq_true.mpr fun field member => ?_
          obtain ⟨other, inLeft, -⟩ := fromRight field member
          exact wellFormed (field.1, other) inLeft
        · intro field member
          obtain ⟨other, -, isWritable, -⟩ := fromRight field member
          exact isWritable
      · rw [DocumentValue.height_document_le]
        intro field member
        obtain ⟨other, inLeft, -, lower⟩ := fromRight field member
        have bound :=
          DocumentValue.height_document_le.mp (Nat.le_refl _) _ inLeft
        dsimp only at bound
        omega
      · refine DocumentValue.raw_document_eq leftDistinct.1 sameKeys
          wellFormed ?_
        intro field member
        obtain ⟨-, other, isOther, inRight⟩ :=
          exists_counterpart leftDistinct.1 keys member
        exact ⟨other, inRight, (paired field member other isOther).2.2⟩

/-- Reordered documents have the same encodings. -/
theorem SameFields.encodes
    {left right : Document}
    (same : SameFields left right)
    (leftDistinct : (DocumentValue.document left).DistinctKeys)
    (rightDistinct : (DocumentValue.document right).DistinctKeys)
    {bytes : Bytes}
    (encodes : encodeDocument left = .ok bytes) :
    encodeDocument right = .ok bytes := by
  obtain ⟨⟨writable, shallow⟩, fits, rfl⟩ := encodeDocumentValue_ok.mp encodes
  obtain ⟨alsoWritable, lower, raw⟩ :=
    same.reordered.encoding leftDistinct rightDistinct writable
  refine encodeDocumentValue_ok.mpr
    ⟨⟨alsoWritable, lower.trans shallow⟩, ?_, raw⟩
  rw [← raw]
  exact fits

/-- The paths of instructions without conflict do not overlap. -/
theorem pairwise_of_checkConflicts
    {instructions : List Instruction}
    (checks : checkConflicts instructions = .ok ()) :
    instructions.Pairwise fun first second =>
      overlaps first.segments second.segments = false := by
  induction instructions with
  | nil =>
      exact .nil
  | cons instruction rest inductionHypothesis =>
      rw [checkConflicts] at checks
      obtain ⟨_, first, later⟩ := Result.bind_eq_ok.mp checks
      refine .cons ?_ (inductionHypothesis later)
      clear later checks inductionHypothesis
      induction rest with
      | nil =>
          simp
      | cons other rest inductionHypothesis =>
          obtain ⟨_, apart, first⟩ := Result.bind_eq_ok.mp first
          rw [List.forall_mem_cons]
          refine ⟨?_, inductionHypothesis first⟩
          unfold checkConflict at apart
          split_ifs at apart with overlap
          exact Bool.not_eq_true _ ▸ overlap

/-- What the instructions of an accepted update are. -/
theorem parseUpdate_ok
    {update : Document}
    {instructions : List Instruction}
    (parses : parseUpdate update = .ok instructions) :
    parseOperators update = .ok instructions ∧
      instructions.Pairwise fun first second =>
        overlaps first.segments second.segments = false := by
  unfold parseUpdate at parses
  split_ifs at parses
  · cases parses
  · obtain ⟨parsed, isParsed, parses⟩ := Result.bind_eq_ok.mp parses
    obtain ⟨_, checks, same⟩ := Result.bind_eq_ok.mp parses
    obtain rfl := Except.ok.inj same
    exact ⟨isParsed, pairwise_of_checkConflicts checks⟩

/-- The operands of an update with distinct keys have distinct keys. -/
theorem distinctKeys_operands
    {update : Document}
    (distinct : (DocumentValue.document update).DistinctKeys)
    {instructions : List Instruction}
    (parses : parseOperators update = .ok instructions) :
    ∀ instruction ∈ instructions, instruction.operand.DistinctKeys := by
  intro instruction member
  obtain ⟨-, name, operands, isField, isOperand⟩ :=
    parseOperators_mem parses instruction member
  have inside := (distinctKeys_document.mp distinct).2 _ isField
  exact (distinctKeys_document.mp inside).2 _ isOperand

/--
The order of the instructions of an accepted update does not matter: it fails
in every order, or gives documents with the same encoding in every order.
-/
theorem update_order_does_not_matter
    {update : Document}
    (updateDistinct : (DocumentValue.document update).DistinctKeys)
    {apply : CompiledUpdate}
    (compiles : compileUpdate update = .ok apply)
    {document : Document}
    (distinct : (DocumentValue.document document).DistinctKeys) :
    ∃ instructions,
      parseUpdate update = .ok instructions ∧
        ∀ reordered, instructions.Perm reordered →
          (∃ error otherError,
            apply document = .error error ∧
              reordered.foldlM applyInstruction document =
                .error otherError) ∨
          ∃ changed other,
            apply document = .ok changed ∧
              reordered.foldlM applyInstruction document = .ok other ∧
              ∀ bytes,
                encodeDocument changed = .ok bytes ↔
                  encodeDocument other = .ok bytes := by
  obtain ⟨instructions, parses, same⟩ := compileUpdate_instructions compiles
  obtain ⟨isParsed, pairwise⟩ := parseUpdate_ok parses
  have operands := distinctKeys_operands updateDistinct isParsed
  refine ⟨instructions, parses, ?_⟩
  intro reordered perm
  rw [same]
  have symmetric :
      ∀ {first second : Instruction},
        overlaps first.segments second.segments = false →
          overlaps second.segments first.segments = false := by
    intro first second apart
    rw [← Bool.not_eq_true, overlaps_iff] at apart ⊢
    exact fun overlap => apart overlap.symm
  have agree :
      Agree SameFields (instructions.foldlM applyInstruction document)
        (reordered.foldlM applyInstruction document) :=
    foldlM_perm SameFields.refl @SameFields.trans applyInstruction_respects
      symmetric applyInstruction_swap perm pairwise document
  cases isChanged : instructions.foldlM applyInstruction document with
  | error error =>
      cases isOther : reordered.foldlM applyInstruction document with
      | error otherError =>
          exact .inl ⟨error, otherError, rfl, rfl⟩
      | ok other =>
          rw [isChanged, isOther] at agree
          exact agree.elim
  | ok changed =>
      cases isOther : reordered.foldlM applyInstruction document with
      | error otherError =>
          rw [isChanged, isOther] at agree
          exact agree.elim
      | ok other =>
          rw [isChanged, isOther] at agree
          have sameFields : SameFields changed other := agree
          have changedDistinct :=
            foldlM_distinctKeys operands distinct isChanged
          have otherDistinct :=
            foldlM_distinctKeys
              (fun instruction member =>
                operands instruction (perm.mem_iff.mpr member))
              distinct isOther
          refine .inr ⟨changed, other, rfl, rfl, ?_⟩
          intro bytes
          constructor
          · exact sameFields.encodes changedDistinct otherDistinct
          · exact sameFields.symm.encodes otherDistinct changedDistinct

/-- Two fields are created below a document that neither of them finds. -/
theorem update_order_does_not_matter_nested :
    ∃ first second changed other,
      parseUpdate
          [(utf16 "$set", .document [(utf16 "a.b", .boolean true)]),
            (utf16 "$push", .document [(utf16 "a.c", .null)])] =
        .ok [first, second] ∧
      [first, second].foldlM applyInstruction [] = .ok changed ∧
      [second, first].foldlM applyInstruction [] = .ok other ∧
      changed ≠ other ∧
      ∀ bytes,
        encodeDocument changed = .ok bytes ↔
          encodeDocument other = .ok bytes := by
  have parses :
      parseUpdate
          [(utf16 "$set", .document [(utf16 "a.b", .boolean true)]),
            (utf16 "$push", .document [(utf16 "a.c", .null)])] =
        .ok [⟨.set, utf16 "a.b", [utf16 "a", utf16 "b"], .boolean true⟩,
          ⟨.push, utf16 "a.c", [utf16 "a", utf16 "c"], .null⟩] := by
    decide +kernel
  have applies :
      [⟨.set, utf16 "a.b", [utf16 "a", utf16 "b"], .boolean true⟩,
          ⟨.push, utf16 "a.c", [utf16 "a", utf16 "c"], .null⟩].foldlM
        applyInstruction [] =
      .ok [(utf16 "a", .document
        [(utf16 "b", .boolean true), (utf16 "c", .array [.null])])] := by
    decide +kernel
  have appliesOther :
      [⟨.push, utf16 "a.c", [utf16 "a", utf16 "c"], .null⟩,
          ⟨.set, utf16 "a.b", [utf16 "a", utf16 "b"], .boolean true⟩].foldlM
        applyInstruction [] =
      .ok [(utf16 "a", .document
        [(utf16 "c", .array [.null]), (utf16 "b", .boolean true)])] := by
    decide +kernel
  obtain ⟨instructions, isParsed, everyOrder⟩ :=
    @update_order_does_not_matter
      [(utf16 "$set", .document [(utf16 "a.b", .boolean true)]),
        (utf16 "$push", .document [(utf16 "a.c", .null)])]
      (by decide +kernel) _ (by rw [compileUpdate, parses]; rfl) []
      (by decide +kernel)
  obtain rfl := Except.ok.inj (parses.symm.trans isParsed)
  obtain ⟨_, _, fails, -⟩ | ⟨changed, other, isChanged, isOther, same⟩ :=
    everyOrder _ (List.Perm.swap _ _ [])
  · rw [applies] at fails
    cases fails
  · refine ⟨_, _, changed, other, parses, isChanged, isOther, ?_, same⟩
    rw [applies] at isChanged
    rw [appliesOther] at isOther
    rw [← Except.ok.inj isChanged, ← Except.ok.inj isOther]
    decide +kernel

end SinterDb
