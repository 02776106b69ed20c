import SinterDb.Storage.UpdateCommutes
import SinterDb.Storage.SortOrder

namespace SinterDb

open Unicode Commuting

/-!
# Applying an update again

The operators that set a value, or take a value into account only once, change
nothing when their update is applied a second time.
-/

/-- The operators whose updates may be repeated. -/
def UpdateOperator.retrySafe : UpdateOperator → Bool
  | .inc => false
  | .push => false
  | _ => true

/-- A change of one field that changes nothing when it is made again. -/
def Repeats (change : Document → Except Thrown Document) : Prop :=
  ∀ document changed,
    change document = .ok changed →
      Agree SameFields (change changed) (.ok changed)

/-- A document whose fields are found again has not changed. -/
theorem agree_of_eq
    {left right : Document}
    (equal : ∀ key, Document.get? left key = Document.get? right key) :
    Agree SameFields (Except.ok left : Except Thrown Document)
      (.ok right) :=
  SameFields.of_eq equal

/-- Assigning the value that a field has changes nothing. -/
theorem agree_set
    {document : Document}
    {key : JsString}
    {value : DocumentValue}
    (found : Document.get? document key = some value) :
    Agree SameFields
      (Except.ok (Document.set document key value) : Except Thrown Document)
      (.ok document) := by
  refine agree_of_eq fun other => ?_
  rw [Document.get?_set]
  split_ifs with same
  · rw [same, found]
  · rfl

/-- A value that has been assigned is found. -/
theorem Document.get?_set_self
    (document : Document)
    (key : JsString)
    (value : DocumentValue) :
    Document.get? (Document.set document key value) key = some value := by
  rw [Document.get?_set, if_pos rfl]

/-- A value ties with itself. -/
theorem compareDocumentValues_self (value : DocumentValue) :
    compareDocumentValues value value = .eq := by
  rw [compareDocumentValues, compareSortValues_eq, cmp_self_eq_eq]

/-- A smallest or largest value is not replaced again. -/
theorem repeats_applyExtremum
    (key : JsString)
    (operand : DocumentValue)
    {replaces : Ordering}
    (strict : replaces ≠ .eq) :
    Repeats fun parent =>
      .ok (applyExtremum parent key operand replaces) := by
  have kept (document : Document) :
      applyExtremum (Document.set document key operand) key operand replaces =
        Document.set document key operand := by
    unfold applyExtremum
    rw [Document.get?_set_self]
    dsimp only
    rw [compareDocumentValues_self, if_neg (Ne.symm strict)]
  intro document changed changes
  obtain rfl := Except.ok.inj changes
  refine agree_of_eq fun other => ?_
  congr 1
  cases current : Document.get? document key with
  | none =>
      have replaced :
          applyExtremum document key operand replaces =
            Document.set document key operand := by
        unfold applyExtremum
        rw [current]
      rw [replaced, kept]
  | some value =>
      by_cases less : compareDocumentValues operand value = replaces
      · have replaced :
            applyExtremum document key operand replaces =
              Document.set document key operand := by
          unfold applyExtremum
          rw [current]
          dsimp only
          rw [if_pos less]
        rw [replaced, kept]
      · have same : applyExtremum document key operand replaces = document := by
          unfold applyExtremum
          rw [current]
          dsimp only
          rw [if_neg less]
        rw [same, same]

/-- A value that can be encoded equals itself. -/
theorem valuesEqual_self
    {value : DocumentValue}
    (hasKey : value.HasKey) :
    valuesEqual value value = .ok true := by
  unfold valuesEqual
  rw [hasKey]
  exact congrArg Except.ok (decide_eq_true rfl)

/-- A test that finds nothing in a list finds what is added to it. -/
theorem someM_append
    {test : DocumentValue → Except Thrown Bool}
    {items : List DocumentValue}
    (nothing : someM test items = .ok false)
    {item : DocumentValue}
    (passes : test item = .ok true) :
    someM test (items ++ [item]) = .ok true := by
  induction items with
  | nil =>
      rw [List.nil_append, someM, passes]
      rfl
  | cons first items inductionHypothesis =>
      rw [someM] at nothing
      obtain ⟨found, isFound, nothing⟩ := Result.bind_eq_ok.mp nothing
      rw [List.cons_append, someM, isFound]
      cases found with
      | true =>
          cases nothing
      | false =>
          exact inductionHypothesis nothing

/-- The array that a field has been set to. -/
theorem getArray_set
    (document : Document)
    (key path : JsString)
    (items : List DocumentValue) :
    getArray (Document.set document key (.array items)) key path =
      .ok (some items) := by
  unfold getArray
  rw [Document.get?_set_self]

/-- A value is added to a set once. -/
theorem repeats_addToSet
    {instruction : Instruction}
    (isAddToSet : instruction.operator = .addToSet)
    (hasKey : instruction.operand.HasKey)
    (key : JsString) :
    Repeats (applyToParent instruction key) := by
  have again
      {document : Document}
      {items : List DocumentValue}
      (found :
        someM (fun element => valuesEqual element instruction.operand) items =
          .ok true) :
      Agree SameFields
        (applyToParent instruction key
          (Document.set document key (.array items)))
        (.ok (Document.set document key (.array items))) := by
    rw [applyToParent, isAddToSet]
    dsimp only
    rw [getArray_set, Result.ok_bind, Option.getD_some, found]
    exact agree_set (Document.get?_set_self _ _ _)
  intro document changed changes
  rw [applyToParent, isAddToSet] at changes
  obtain ⟨items, -, changes⟩ := Result.bind_eq_ok.mp changes
  obtain ⟨found, isFound, changes⟩ := Result.bind_eq_ok.mp changes
  cases found with
  | true =>
      obtain rfl := Except.ok.inj changes
      exact again isFound
  | false =>
      obtain rfl := Except.ok.inj changes
      exact again (someM_append isFound (valuesEqual_self hasKey))

/-- A filter keeps a list all of whose items pass its test. -/
theorem filterM_of_passes
    {test : DocumentValue → Except Thrown Bool}
    {items : List DocumentValue}
    (passes : ∀ item ∈ items, test item = .ok true) :
    items.filterM test = .ok items := by
  have collected :
      ∀ before : List DocumentValue,
        items.filterAuxM test before = .ok (items.reverse ++ before) := by
    induction items with
    | nil =>
        intro before
        rfl
    | cons first items inductionHypothesis =>
        intro before
        rw [List.forall_mem_cons] at passes
        rw [List.filterAuxM, passes.1, Result.ok_bind,
          inductionHypothesis passes.2]
        simp
  rw [List.filterM, collected, Result.ok_bind, List.append_nil,
    List.reverse_reverse]
  rfl

/-- What has been pulled is not found again. -/
theorem repeats_pull
    {instruction : Instruction}
    (isPull : instruction.operator = .pull)
    (key : JsString) :
    Repeats (applyToParent instruction key) := by
  intro document changed changes
  have unfolded := changes
  rw [applyToParent, isPull] at unfolded
  obtain ⟨items, isItems, unfolded⟩ := Result.bind_eq_ok.mp unfolded
  split at unfolded
  · obtain rfl := Except.ok.inj unfolded
    rw [changes]
    exact SameFields.refl _
  · obtain rfl := Except.ok.inj unfolded
    rw [changes]
    exact SameFields.refl _
  · obtain ⟨kept, filters, same⟩ := Result.bind_eq_ok.mp unfolded
    obtain rfl := Except.ok.inj same
    rw [applyToParent, isPull]
    dsimp only
    rw [getArray_set, Result.ok_bind]
    split
    · rename_i none
      cases none
    · exact SameFields.refl _
    · rename_i items _ isItems
      obtain rfl := Option.some.inj isItems
      rw [filterM_of_passes fun item member =>
        (of_mem_filterM filters member).2]
      exact agree_set (Document.get?_set_self _ _ _)

/-- What a safe operator does to a field changes nothing again. -/
theorem repeats_applyToParent
    {instruction : Instruction}
    (safe : instruction.operator.retrySafe = true)
    (hasKey :
      instruction.operator = .addToSet → instruction.operand.HasKey)
    (key : JsString) :
    Repeats (applyToParent instruction key) := by
  cases operator : instruction.operator with
  | set =>
      intro document changed changes
      simp only [applyToParent, operator] at changes ⊢
      obtain rfl := Except.ok.inj changes
      exact agree_set (Document.get?_set_self _ _ _)
  | unset =>
      intro document changed changes
      simp only [applyToParent, operator] at changes ⊢
      obtain rfl := Except.ok.inj changes
      refine agree_of_eq fun other => ?_
      rw [Document.get?_erase]
      split_ifs with same
      · rw [same, Document.get?_erase, if_pos rfl]
      · rfl
  | min =>
      have repeats :=
        repeats_applyExtremum key instruction.operand
          (show Ordering.lt ≠ .eq by decide)
      simp only [Repeats, applyToParent, operator] at repeats ⊢
      exact repeats
  | max =>
      have repeats :=
        repeats_applyExtremum key instruction.operand
          (show Ordering.gt ≠ .eq by decide)
      simp only [Repeats, applyToParent, operator] at repeats ⊢
      exact repeats
  | addToSet =>
      exact repeats_addToSet operator (hasKey operator) key
  | pull =>
      exact repeats_pull operator key
  | inc =>
      rw [operator] at safe
      cases safe
  | push =>
      rw [operator] at safe
      cases safe

/-- A change at a path changes nothing again. -/
theorem repeats_changeParent
    {create : Bool}
    {change : JsString → Document → Except Thrown Document}
    (repeats : ∀ key, Repeats (change key))
    (walked path : List JsString) :
    Repeats (changeParent create change walked path) := by
  induction path generalizing walked with
  | nil =>
      intro document changed changes
      exact SameFields.refl _
  | cons segment rest inductionHypothesis =>
      cases rest with
      | nil =>
          exact repeats segment
      | cons second rest =>
          intro document changed changes
          obtain rfl | ⟨before, inner, -, changesInside, rfl⟩ :=
            changeParent_cases changes
          · rw [changes]
            exact SameFields.refl _
          · have inside :=
              inductionHypothesis (walked ++ [segment]) before inner
                changesInside
            rw [changeParent]
            · rw [Document.get?_set_self]
              dsimp only
              generalize
                changeParent create change (walked ++ [segment])
                  (second :: rest) inner = outcome at inside
              cases outcome with
              | error error =>
                  exact inside.elim
              | ok again =>
                  have same : SameFields again inner := inside
                  change
                    SameFields
                      (Document.set
                        (Document.set document segment (.document inner))
                        segment (.document again))
                      (Document.set document segment (.document inner))
                  intro other
                  rw [Document.get?_set]
                  split_ifs with isSegment
                  · rw [isSegment, Document.get?_set_self]
                    exact .some same.reordered
                  · exact SameFields.refl _ other
            · simp

/-- What a change that creates its path leaves at the end of the path. -/
theorem resolveField_target
    {change : JsString → Document → Except Thrown Document}
    {holds : Option DocumentValue → Prop}
    (leaves :
      ∀ key parent after,
        change key parent = .ok after → holds (Document.get? after key))
    {walked path : List JsString}
    {document changed : Document}
    (changes : changeParent true change walked path document = .ok changed)
    (nonempty : path ≠ []) :
    holds (resolveField changed path) := by
  induction path generalizing walked document changed with
  | nil =>
      exact absurd rfl nonempty
  | cons segment rest inductionHypothesis =>
      cases rest with
      | nil =>
          exact leaves segment document changed changes
      | cons second rest =>
          have inside
              {before : Document}
              (changes :
                (do
                  let inner ←
                    changeParent true change (walked ++ [segment])
                      (second :: rest) before
                  return Document.set document segment (.document inner)) =
                  Except.ok changed) :
              holds (resolveField changed (segment :: second :: rest)) := by
            obtain ⟨inner, changesInside, same⟩ :=
              Result.bind_eq_ok.mp changes
            obtain rfl := Except.ok.inj same
            rw [(Inside.set _ _ _).resolveField]
            exact inductionHypothesis changesInside nofun
          rw [changeParent] at changes
          · split at changes
            · exact inside changes
            · exact inside changes
            · cases changes
          · simp

/-- An item of an array that has a key has one, too. -/
theorem hasKey_of_mem_array
    {items : List DocumentValue}
    (hasKey : (DocumentValue.array items).HasKey)
    {item : DocumentValue}
    (member : item ∈ items) :
    item.HasKey := by
  rw [hasKey_iff] at hasKey ⊢
  obtain ⟨⟨writable, shallow⟩, fits⟩ := hasKey
  have inside :=
    ((DocumentValue.allNodes_array _ items).mp writable).2 item member
  have lower := DocumentValue.height_array_le.mp shallow item member
  rw [DocumentValue.length_raw_array] at fits
  have part :=
    List.single_le_sum (fun _ _ => Nat.zero_le _) _
      (List.mem_map_of_mem (f := fun item => item.raw.length) member)
  exact ⟨⟨inside, by omega⟩, by omega⟩

/-- A test that finds something passes for an item. -/
theorem exists_of_someM
    {test : DocumentValue → Except Thrown Bool}
    {items : List DocumentValue}
    (found : someM test items = .ok true) :
    ∃ item ∈ items, test item = .ok true := by
  induction items with
  | nil =>
      cases found
  | cons first items inductionHypothesis =>
      rw [someM] at found
      obtain ⟨passes, isPassed, found⟩ := Result.bind_eq_ok.mp found
      cases passes with
      | true =>
          exact ⟨first, List.mem_cons_self, isPassed⟩
      | false =>
          obtain ⟨item, member, passes⟩ := inductionHypothesis found
          exact ⟨item, List.mem_cons_of_mem _ member, passes⟩

/-- A value that another one has been compared with has a key. -/
theorem hasKey_of_valuesEqual
    {left right : DocumentValue}
    {equal : Bool}
    (compares : valuesEqual left right = .ok equal) :
    right.HasKey := by
  unfold valuesEqual at compares
  obtain ⟨_, -, compares⟩ := Result.bind_eq_ok.mp compares
  obtain ⟨bytes, encodes, -⟩ := Result.bind_eq_ok.mp compares
  unfold liftProtocol at encodes
  split at encodes
  · rename_i encoded isEncoded
    rw [DocumentValue.HasKey, isEncoded]
    obtain ⟨-, -, rfl⟩ := encodeDocumentValue_ok.mp isEncoded
    rfl
  · cases encodes

/-- An operand that has been added to a set has a key, or is in the array. -/
theorem addToSet_leaves
    {instruction : Instruction}
    (isAddToSet : instruction.operator = .addToSet)
    (key : JsString)
    (parent after : Document)
    (applies : applyToParent instruction key parent = .ok after) :
    instruction.operand.HasKey ∨
      ∃ items,
        Document.get? after key = some (.array items) ∧
          instruction.operand ∈ items := by
  rw [applyToParent, isAddToSet] at applies
  obtain ⟨items, -, applies⟩ := Result.bind_eq_ok.mp applies
  obtain ⟨found, isFound, applies⟩ := Result.bind_eq_ok.mp applies
  cases found with
  | true =>
      obtain ⟨item, -, passes⟩ := exists_of_someM isFound
      exact .inl (hasKey_of_valuesEqual passes)
  | false =>
      obtain rfl := Except.ok.inj applies
      refine .inr ⟨_, Document.get?_set_self _ _ _, ?_⟩
      exact List.mem_append_right _ (List.mem_singleton_self _)

/-- The operands of `$addToSet` have keys when the changed document has one. -/
theorem hasKey_operand
    {instructions : List Instruction}
    (pairwise :
      instructions.Pairwise fun first second =>
        overlaps first.segments second.segments = false)
    (paths : ∀ instruction ∈ instructions, instruction.segments ≠ [])
    {document changed : Document}
    (applies : instructions.foldlM applyInstruction document = .ok changed)
    (hasKey : (DocumentValue.document changed).HasKey)
    {instruction : Instruction}
    (member : instruction ∈ instructions)
    (isAddToSet : instruction.operator = .addToSet) :
    instruction.operand.HasKey := by
  obtain ⟨before, behind, rfl⟩ := List.append_of_mem member
  rw [List.foldlM_append] at applies
  obtain ⟨reached, -, applies⟩ := Result.bind_eq_ok.mp applies
  rw [List.foldlM_cons] at applies
  obtain ⟨next, step, applies⟩ := Result.bind_eq_ok.mp applies
  have apart :
      ∀ other ∈ behind,
        overlaps other.segments instruction.segments = false := by
    intro other isBehind
    have disjoint :=
      (List.pairwise_cons.mp (List.pairwise_append.mp pairwise).2.1).1 other
        isBehind
    rw [← Bool.not_eq_true, overlaps_iff] at disjoint ⊢
    exact fun overlap => disjoint overlap.symm
  have creates :
      (instruction.operator ≠ .unset && instruction.operator ≠ .pull) =
        true := by
    rw [isAddToSet]
    rfl
  rw [applyInstruction, creates] at step
  have left :=
    @resolveField_target _
      (fun value =>
        instruction.operand.HasKey ∨
          ∃ items,
            value = some (.array items) ∧ instruction.operand ∈ items)
      (addToSet_leaves isAddToSet) _ _ _ _ step (paths instruction member)
  rw [← resolveField_foldlM applies apart] at left
  obtain done | ⟨items, found, isItem⟩ := left
  · exact done
  · exact hasKey_of_mem_array (hasKey_of_resolveField hasKey found) isItem

/-- The names of the operators whose updates may be repeated. -/
def retrySafeNames : List JsString :=
  [utf16 "$set", utf16 "$unset", utf16 "$min", utf16 "$max",
    utf16 "$addToSet", utf16 "$pull"]

/-- The operator of an instruction is named by a field of the update. -/
theorem parseOperators_operator
    {update : Document}
    {instructions : List Instruction}
    (parses : parseOperators update = .ok instructions) :
    ∀ instruction ∈ instructions,
      ∃ field ∈ update,
        UpdateOperator.ofName? field.1 = some instruction.operator := by
  induction update generalizing instructions with
  | nil =>
      obtain rfl := Except.ok.inj parses
      nofun
  | cons field rest inductionHypothesis =>
      rw [parseOperators] at parses
      obtain ⟨first, parsesFirst, parses⟩ := Result.bind_eq_ok.mp parses
      obtain ⟨later, parsesRest, same⟩ := Result.bind_eq_ok.mp parses
      obtain rfl := Except.ok.inj same
      intro instruction member
      rcases List.mem_append.mp member with inFirst | inLater
      · refine ⟨field, List.mem_cons_self, ?_⟩
        unfold parseOperator at parsesFirst
        split at parsesFirst
        · cases parsesFirst
        · rename_i operator isOperator
          split at parsesFirst
          · rw [parseOperands_operator parsesFirst instruction inFirst]
            exact isOperator
          · cases parsesFirst
      · obtain ⟨other, isField, isOperator⟩ :=
          inductionHypothesis parsesRest instruction inLater
        exact ⟨other, List.mem_cons_of_mem _ isField, isOperator⟩

/-- The operators with safe names are safe. -/
theorem retrySafe_of_name
    {name : JsString}
    {operator : UpdateOperator}
    (isName : name ∈ retrySafeNames)
    (isOperator : UpdateOperator.ofName? name = some operator) :
    operator.retrySafe = true := by
  have all :
      ∀ name ∈ retrySafeNames,
        (UpdateOperator.ofName? name).all UpdateOperator.retrySafe = true := by
    decide +kernel
  have safe := all name isName
  rw [isOperator] at safe
  exact safe

/--
Applying an update of safe operators again to its result succeeds and changes
no byte of the encoding, so that nothing is reported as modified.
-/
theorem update_again_changes_nothing
    {update : Document}
    (updateDistinct : (DocumentValue.document update).DistinctKeys)
    (safe : ∀ field ∈ update, field.1 ∈ retrySafeNames)
    {apply : CompiledUpdate}
    (compiles : compileUpdate update = .ok apply)
    {located : LocatedDocument}
    (distinct : (DocumentValue.document located.document).DistinctKeys)
    {outcome : Option (JsString × Bytes)}
    (succeeds : prepareUpdate located apply = .ok outcome) :
    ∃ changed encoded again,
      apply located.document = .ok changed ∧
        encodeDocument changed = .ok encoded ∧
        apply changed = .ok again ∧
        encodeDocument again = .ok encoded ∧
        prepareUpdate ⟨located.key, encoded, changed⟩ apply = .ok none := by
  obtain ⟨changed, applies, encodes⟩ := Result.bind_eq_ok.mp succeeds
  obtain ⟨encoded, encodes, -⟩ := Result.bind_eq_ok.mp encodes
  have encodes : encodeDocument changed = .ok encoded := by
    unfold encodeStoredDocument at encodes
    split at encodes
    · rename_i bytes isEncoded
      rw [isEncoded, Except.ok.inj encodes]
    · cases encodes
  obtain ⟨instructions, parses, same⟩ := compileUpdate_instructions compiles
  obtain ⟨isParsed, pairwise⟩ := parseUpdate_ok parses
  have operands := distinctKeys_operands updateDistinct isParsed
  rw [same] at applies
  have changedDistinct := foldlM_distinctKeys operands distinct applies
  have hasKey : (DocumentValue.document changed).HasKey := by
    obtain ⟨encodable, fits, -⟩ := encodeDocumentValue_ok.mp encodes
    exact hasKey_iff.mpr ⟨encodable, fits⟩
  have paths :
      ∀ instruction ∈ instructions, instruction.segments ≠ [] := by
    intro instruction member
    obtain ⟨isPath, -⟩ := parseOperators_mem isParsed instruction member
    rw [(parsePath_ok isPath).1]
    exact List.splitOn_ne_nil _ _
  have settles :
      ∀ instruction ∈ instructions, ∀ document next,
        applyInstruction document instruction = .ok next →
          Settled SameFields applyInstruction next instruction := by
    intro instruction member document next step
    obtain ⟨field, isField, isOperator⟩ :=
      parseOperators_operator isParsed instruction member
    have isSafe := retrySafe_of_name (safe field isField) isOperator
    exact repeats_changeParent
      (repeats_applyToParent isSafe
        (hasKey_operand pairwise paths applies hasKey member))
      [] instruction.segments document next step
  have again :
      Agree SameFields (instructions.foldlM applyInstruction changed)
        (.ok changed) :=
    foldlM_settled SameFields.refl @SameFields.trans applyInstruction_respects
      (settled_of_foldlM @SameFields.trans (fun _ _ => SameFields.symm)
        applyInstruction_respects applyInstruction_swap settles pairwise
        applies)
  cases isAgain : instructions.foldlM applyInstruction changed with
  | error error =>
      rw [isAgain] at again
      exact again.elim
  | ok result =>
      rw [isAgain] at again
      have sameFields : SameFields result changed := again
      have resultDistinct :=
        foldlM_distinctKeys operands changedDistinct isAgain
      have encodesAgain : encodeDocument result = .ok encoded :=
        sameFields.symm.encodes changedDistinct resultDistinct encodes
      refine ⟨changed, encoded, result, (same _).trans applies, encodes,
        (same _).trans isAgain, encodesAgain, ?_⟩
      rw [prepareUpdate, same, isAgain, Result.ok_bind, encodeStoredDocument,
        encodesAgain, Result.ok_bind, if_pos rfl]
      rfl

/-- An update that creates a document and fills a set in it. -/
def tagUpdate : Document :=
  [(utf16 "$addToSet", .document [(utf16 "a.b", .null)]),
    (utf16 "$min", .document [(utf16 "a.c", .boolean true)]),
    (utf16 "$pull", .document [(utf16 "d.e", .null)])]

/-- The update creates its fields in an empty document once. -/
theorem update_again_changes_nothing_tag :
    ∃ apply changed encoded,
      compileUpdate tagUpdate = .ok apply ∧
        apply [] = .ok changed ∧
        prepareUpdate ⟨[], encoded, changed⟩ apply = .ok none := by
  have parses :
      parseUpdate tagUpdate =
        .ok [⟨.addToSet, utf16 "a.b", [utf16 "a", utf16 "b"], .null⟩,
          ⟨.min, utf16 "a.c", [utf16 "a", utf16 "c"], .boolean true⟩,
          ⟨.pull, utf16 "d.e", [utf16 "d", utf16 "e"], .null⟩] := by
    decide +kernel
  have compiles :
      compileUpdate tagUpdate =
        .ok fun document =>
          [⟨.addToSet, utf16 "a.b", [utf16 "a", utf16 "b"], .null⟩,
            ⟨.min, utf16 "a.c", [utf16 "a", utf16 "c"], .boolean true⟩,
            ⟨.pull, utf16 "d.e", [utf16 "d", utf16 "e"], .null⟩].foldlM
              applyInstruction document := by
    rw [compileUpdate, parses]
    rfl
  obtain ⟨outcome, succeeds⟩ :=
    Result.isOk_iff_exists.mp
      (by
        decide +kernel :
          (prepareUpdate ⟨[], [], []⟩ fun document =>
            [⟨.addToSet, utf16 "a.b", [utf16 "a", utf16 "b"], .null⟩,
              ⟨.min, utf16 "a.c", [utf16 "a", utf16 "c"], .boolean true⟩,
              ⟨.pull, utf16 "d.e", [utf16 "d", utf16 "e"], .null⟩].foldlM
                applyInstruction document).isOk = true)
  obtain ⟨changed, encoded, again, applies, -, -, -, nothing⟩ :=
    update_again_changes_nothing (by decide +kernel) (by decide +kernel)
      compiles (by decide +kernel) succeeds
  exact ⟨_, changed, encoded, compiles, applies, nothing⟩

end SinterDb
