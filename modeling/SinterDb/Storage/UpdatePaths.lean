import SinterDb.Storage.StoredForm

namespace SinterDb

open Unicode

/-!
# What updates reach

An instruction depends on the value at its path and changes nothing else.
Documents on the way to its target are created when the operator needs them.
-/

/-- A document with one field, or with none. -/
def single (key : JsString) (value : Option DocumentValue) : Document :=
  value.toList.map fun value => (key, value)

/-- The value of the one field. -/
@[simp] theorem get?_single
    (key : JsString)
    (value : Option DocumentValue) :
    Document.get? (single key value) key = value := by
  cases value <;> simp [single, Document.get?]

/--
A change reads one field only and writes one field only: on every document it
does to the field what it does when there is no other field.
-/
def ActsAt
    (key : JsString)
    (act : Document → Except Thrown Document) : Prop :=
  ∀ document,
    match act (single key (Document.get? document key)), act document with
    | .error expected, .error error => error = expected
    | .ok small, .ok changed =>
        ∀ other,
          Document.get? changed other =
            if other = key then Document.get? small key
            else Document.get? document other
    | _, _ => False

/-- The deleted field is gone. -/
theorem Document.get?_erase
    (document : Document)
    (key other : JsString) :
    Document.get? (Document.erase document key) other =
      if other = key then none else Document.get? document other := by
  split_ifs with same
  · subst same
    simp [Document.get?, Document.erase]
  · exact Document.get?_erase_of_ne document same

/-- Assigning a field acts at it. -/
theorem actsAt_set
    {key : JsString}
    {document small : Document}
    {value : DocumentValue}
    (other : JsString) :
    Document.get? (Document.set document key value) other =
      if other = key then Document.get? (Document.set small key value) key
      else Document.get? document other := by
  rw [Document.get?_set, Document.get?_set, if_pos rfl]

/-- A field that is kept is the one of a document with this field only. -/
theorem actsAt_keep
    {key : JsString}
    {document : Document}
    (other : JsString) :
    Document.get? document other =
      if other = key then
        Document.get? (single key (Document.get? document key)) key
      else
        Document.get? document other := by
  rw [get?_single]
  split_ifs with same
  · rw [same]
  · rfl

/-- A comparison with an operand acts at the field. -/
theorem applyExtremum_actsAt
    (operand : DocumentValue)
    (replaces : Ordering)
    (key : JsString) :
    ActsAt key fun parent =>
      .ok (applyExtremum parent key operand replaces) := by
  intro document other
  have keep := @actsAt_keep key document other
  unfold applyExtremum
  rw [get?_single]
  cases current : Document.get? document key with
  | none =>
      exact actsAt_set other
  | some value =>
      dsimp only
      by_cases replaced : compareDocumentValues operand value = replaces
      · rw [if_pos replaced, if_pos replaced]
        exact actsAt_set other
      · rw [if_neg replaced, if_neg replaced]
        rw [current] at keep
        exact keep

/-- What is done to the parent of a path acts at the last segment. -/
theorem applyToParent_actsAt
    (instruction : Instruction)
    (key : JsString) :
    ActsAt key (applyToParent instruction key) := by
  intro document
  have kept :
      ∀ other,
        Document.get? document other =
          if other = key then Document.get? document key
          else Document.get? document other := by
    intro other
    split_ifs with same
    · rw [same]
    · rfl
  obtain ⟨operator, path, segments, operand⟩ := instruction
  generalize current : Document.get? document key = value at *
  cases operator with
  | set =>
      exact fun other => actsAt_set other
  | unset =>
      intro other
      rw [Document.get?_erase, Document.get?_erase, if_pos rfl]
  | inc =>
      simp only [applyToParent, applyInc, get?_single, current]
      cases value with
      | none =>
          exact fun other => actsAt_set other
      | some value =>
          cases value with
          | number value =>
              cases operand with
              | number operand =>
                  dsimp only
                  split_ifs
                  · exact fun other => actsAt_set other
                  · rfl
              | _ =>
                  rfl
          | bigint value =>
              cases operand with
              | bigint operand =>
                  exact fun other => actsAt_set other
              | _ =>
                  rfl
          | _ =>
              rfl
  | min =>
      exact current ▸ applyExtremum_actsAt operand .lt key document
  | max =>
      exact current ▸ applyExtremum_actsAt operand .gt key document
  | push =>
      simp only [applyToParent, getArray, get?_single, current]
      cases value with
      | none =>
          exact fun other => actsAt_set other
      | some value =>
          cases value with
          | array items =>
              exact fun other => actsAt_set other
          | _ =>
              rfl
  | addToSet =>
      simp only [applyToParent, getArray, get?_single, current]
      cases value with
      | none =>
          exact fun other => actsAt_set other
      | some value =>
          cases value with
          | array items =>
              dsimp only [bind, Except.bind, Option.getD_some]
              generalize someM _ items = found
              cases found with
              | error _ =>
                  rfl
              | ok found =>
                  cases found <;> exact fun other => actsAt_set other
          | _ =>
              rfl
  | pull =>
      simp only [applyToParent, getArray, get?_single, current]
      cases value with
      | none =>
          exact kept
      | some value =>
          cases value with
          | array items =>
              cases items with
              | nil =>
                  intro other
                  rw [get?_single]
                  exact kept other
              | cons item items =>
                  dsimp only [bind, Except.bind]
                  generalize ((item :: items).filterM _ :
                    Except Thrown (List DocumentValue)) = filtered
                  cases filtered with
                  | error _ =>
                      rfl
                  | ok filtered =>
                      exact fun other => actsAt_set other
          | _ =>
              rfl

/-- A change at a path acts at the first segment. -/
theorem changeParent_actsAt
    {create : Bool}
    {change : JsString → Document → Except Thrown Document}
    (acts : ∀ key, ActsAt key (change key))
    (walked : List JsString)
    (segment : JsString)
    (rest : List JsString) :
    ActsAt segment (changeParent create change walked (segment :: rest)) := by
  cases rest with
  | nil =>
      exact acts segment
  | cons second rest =>
      intro document
      have keep := @actsAt_keep segment document
      simp only [changeParent, get?_single]
      cases current : Document.get? document segment with
      | none =>
          rw [current] at keep
          cases create with
          | false =>
              exact keep
          | true =>
              dsimp only [if_true, bind, Except.bind]
              generalize changeParent true change _ (second :: rest) [] = inner
              cases inner with
              | error _ =>
                  rfl
              | ok inner =>
                  exact fun other => actsAt_set other
      | some value =>
          rw [current] at keep
          cases value with
          | document fields =>
              dsimp only [bind, Except.bind]
              generalize changeParent create change _ (second :: rest) fields =
                inner
              cases inner with
              | error _ =>
                  rfl
              | ok inner =>
                  exact fun other => actsAt_set other
          | _ =>
              cases create with
              | false =>
                  exact keep
              | true =>
                  rfl

/-- Two paths overlap when one of them starts with the other. -/
theorem overlaps_iff
    {left right : List JsString} :
    overlaps left right = true ↔ left <+: right ∨ right <+: left := by
  induction left generalizing right with
  | nil =>
      simp [overlaps]
  | cons first left inductionHypothesis =>
      cases right with
      | nil =>
          simp [overlaps]
      | cons second right =>
          rw [overlaps, Bool.and_eq_true, decide_eq_true_eq,
            inductionHypothesis, List.cons_prefix_cons, List.cons_prefix_cons,
            eq_comm (a := second), ← and_or_left]

/-- Nothing is found in an empty document. -/
theorem resolveField_nil (path : List JsString) :
    resolveField [] path = none := by
  match path with
  | [] =>
      rfl
  | [_] =>
      rfl
  | _ :: _ :: _ =>
      rfl

/-- The fields of the document at a key; none of them when there is nothing. -/
def Inside
    (document : Document)
    (segment : JsString)
    (fields : Document) : Prop :=
  Document.get? document segment = some (.document fields) ∨
    Document.get? document segment = none ∧ fields = []

/-- A longer path goes on inside the document at its first segment. -/
theorem Inside.resolveField
    {document fields : Document}
    {segment second : JsString}
    {path : List JsString}
    (inside : Inside document segment fields) :
    resolveField document (segment :: second :: path) =
      resolveField fields (second :: path) := by
  rw [SinterDb.resolveField]
  · obtain found | ⟨missing, rfl⟩ := inside
    · rw [found]
    · rw [missing, resolveField_nil]
  · simp

/-- The fields of a document that has been assigned. -/
theorem Inside.set
    (document : Document)
    (segment : JsString)
    (fields : Document) :
    Inside (Document.set document segment (.document fields)) segment
      fields := by
  left
  rw [Document.get?_set, if_pos rfl]

/-- What a change at a longer path can do. -/
theorem changeParent_cases
    {create : Bool}
    {change : JsString → Document → Except Thrown Document}
    {walked rest : List JsString}
    {segment second : JsString}
    {document changed : Document}
    (changes :
      changeParent create change walked (segment :: second :: rest) document =
        .ok changed) :
    changed = document ∨
      ∃ before inner,
        Inside document segment before ∧
          changeParent create change (walked ++ [segment]) (second :: rest)
            before = .ok inner ∧
          changed = Document.set document segment (.document inner) := by
  rw [changeParent] at changes
  · split at changes
    · rename_i missing
      split_ifs at changes with creates
      · obtain ⟨inner, changesInside, same⟩ := Result.bind_eq_ok.mp changes
        exact .inr ⟨[], inner, .inr ⟨missing, rfl⟩, changesInside,
          (Except.ok.inj same).symm⟩
      · exact .inl (Except.ok.inj changes).symm
    · rename_i before found
      obtain ⟨inner, changesInside, same⟩ := Result.bind_eq_ok.mp changes
      exact .inr ⟨before, inner, .inl found, changesInside,
        (Except.ok.inj same).symm⟩
    · split_ifs at changes
      exact .inl (Except.ok.inj changes).symm
  · simp

section

variable
  {create : Bool}
  {change : JsString → Document → Except Thrown Document}
  (keeps :
    ∀ key document changed other, change key document = .ok changed →
      other ≠ key →
      Document.get? changed other = Document.get? document other)

include keeps

/-- A path that the change does not meet has the same value before and after. -/
theorem resolveField_changeParent
    {walked target path : List JsString}
    {document changed : Document}
    (changes :
      changeParent create change walked target document = .ok changed)
    (apart : overlaps target path = false) :
    resolveField changed path = resolveField document path := by
  induction target generalizing path document changed walked with
  | nil =>
      simp [overlaps] at apart
  | cons segment rest inductionHypothesis =>
      cases path with
      | nil =>
          simp [overlaps] at apart
      | cons first path =>
          by_cases same : segment = first
          · subst same
            have apart : overlaps rest path = false := by
              simpa [overlaps] using apart
            cases rest with
            | nil =>
                simp [overlaps] at apart
            | cons second rest =>
                cases path with
                | nil =>
                    simp [overlaps] at apart
                | cons third path =>
                    obtain rfl | ⟨before, inner, inside, changesInside, rfl⟩ :=
                      changeParent_cases changes
                    · rfl
                    · rw [inside.resolveField, (Inside.set _ _ _).resolveField]
                      exact inductionHypothesis changesInside apart
          · have other :
                Document.get? changed first = Document.get? document first :=
              changeParent_get?
                (fun key document changed => keeps key document changed first)
                changes (by simpa using same)
            cases path with
            | nil =>
                simpa [resolveField] using other
            | cons second path =>
                rw [resolveField, resolveField, other] <;> simp

/--
A path that does not lead to the target or beyond it keeps its value or ends at
a document on the way.
-/
theorem resolveField_changeParent_or
    {walked target path : List JsString}
    {document changed : Document}
    (changes :
      changeParent create change walked target document = .ok changed)
    (outside : ¬ target <+: path) :
    resolveField changed path = resolveField document path ∨
      ∃ fields, resolveField changed path = some (.document fields) := by
  induction path generalizing target document changed walked with
  | nil =>
      exact .inl rfl
  | cons first path inductionHypothesis =>
      by_cases apart : overlaps target (first :: path) = false
      · exact .inl (resolveField_changeParent keeps changes apart)
      · rw [Bool.not_eq_false, overlaps_iff] at apart
        obtain ⟨rest, rfl⟩ := apart.resolve_left outside
        cases path with
        | nil =>
            cases rest with
            | nil =>
                exact absurd List.prefix_rfl outside
            | cons second rest =>
                obtain rfl | ⟨before, inner, -, -, rfl⟩ :=
                  changeParent_cases changes
                · exact .inl rfl
                · right
                  refine ⟨inner, ?_⟩
                  rw [resolveField, Document.get?_set, if_pos rfl]
        | cons second path =>
            obtain rfl | ⟨before, inner, inside, changesInside, rfl⟩ :=
              changeParent_cases changes
            · exact .inl rfl
            · rw [inside.resolveField, (Inside.set _ _ _).resolveField]
              refine inductionHypothesis changesInside ?_
              intro longer
              exact outside (List.cons_prefix_cons.mpr ⟨rfl, longer⟩)

end

/-- The instructions of an update that has been compiled. -/
theorem compileUpdate_instructions
    {update : Document}
    {apply : CompiledUpdate}
    (compiles : compileUpdate update = .ok apply) :
    ∃ instructions,
      parseUpdate update = .ok instructions ∧
        ∀ document,
          apply document = instructions.foldlM applyInstruction document := by
  obtain ⟨instructions, parses, same⟩ := Result.bind_eq_ok.mp compiles
  obtain rfl := Except.ok.inj same
  exact ⟨instructions, parses, fun _ => rfl⟩

/-- A path that no instruction meets has the same value before and after. -/
theorem resolveField_foldlM
    {instructions : List Instruction}
    {document changed : Document}
    (applies : instructions.foldlM applyInstruction document = .ok changed)
    {path : List JsString}
    (apart :
      ∀ instruction ∈ instructions,
        overlaps instruction.segments path = false) :
    resolveField changed path = resolveField document path := by
  induction instructions generalizing document with
  | nil =>
      obtain rfl := Except.ok.inj applies
      rfl
  | cons instruction rest inductionHypothesis =>
      rw [List.forall_mem_cons] at apart
      rw [List.foldlM_cons] at applies
      obtain ⟨next, step, applies⟩ := Result.bind_eq_ok.mp applies
      rw [inductionHypothesis applies apart.2]
      exact resolveField_changeParent (fun _ _ _ _ => applyToParent_get?) step
        apart.1

/-- A path that no instruction replaces keeps its value or has a document. -/
theorem resolveField_foldlM_or
    {instructions : List Instruction}
    {document changed : Document}
    (applies : instructions.foldlM applyInstruction document = .ok changed)
    {path : List JsString}
    (outside :
      ∀ instruction ∈ instructions, ¬ instruction.segments <+: path) :
    resolveField changed path = resolveField document path ∨
      ∃ fields, resolveField changed path = some (.document fields) := by
  induction instructions generalizing document with
  | nil =>
      obtain rfl := Except.ok.inj applies
      exact .inl rfl
  | cons instruction rest inductionHypothesis =>
      rw [List.forall_mem_cons] at outside
      rw [List.foldlM_cons] at applies
      obtain ⟨next, step, applies⟩ := Result.bind_eq_ok.mp applies
      obtain kept | created := inductionHypothesis applies outside.2
      · rw [kept]
        exact resolveField_changeParent_or (fun _ _ _ _ => applyToParent_get?)
          step outside.1
      · exact .inr created

/--
An update changes only what it names: the paths that meet no path of an
instruction, and the id, have the values they had; a path that is found only
afterwards leads to a target or into its new value, or to a document on the
way to a target.
-/
theorem update_changes_only_targets
    {update : Document}
    {apply : CompiledUpdate}
    (compiles : compileUpdate update = .ok apply)
    {document changed : Document}
    (applies : apply document = .ok changed) :
    ∃ instructions,
      parseUpdate update = .ok instructions ∧
        (∀ path,
          (∀ instruction ∈ instructions,
            ¬ instruction.segments <+: path ∧
              ¬ path <+: instruction.segments) →
          resolveField changed path = resolveField document path) ∧
        Document.get? changed idField = Document.get? document idField ∧
        ∀ path value,
          resolveField document path = none →
          resolveField changed path = some value →
            ∃ instruction ∈ instructions,
              instruction.segments <+: path ∨
                path <+: instruction.segments ∧
                  ∃ fields, value = .document fields := by
  have keepsId := compileUpdate_keeps_id compiles applies
  obtain ⟨instructions, parses, same⟩ := compileUpdate_instructions compiles
  rw [same] at applies
  refine ⟨instructions, parses, ?_, keepsId, ?_⟩
  · intro path apart
    refine resolveField_foldlM applies ?_
    intro instruction member
    rw [← Bool.not_eq_true, overlaps_iff, not_or]
    exact apart instruction member
  · intro path value missing found
    by_contra nowhere
    push Not at nowhere
    have outside :
        ∀ instruction ∈ instructions, ¬ instruction.segments <+: path :=
      fun instruction member => (nowhere instruction member).1
    obtain kept | ⟨fields, isDocument⟩ :=
      resolveField_foldlM_or applies outside
    · rw [kept, missing] at found
      cases found
    · have isFields : value = .document fields :=
        Option.some.inj (found.symm.trans isDocument)
      have unchanged :=
        @resolveField_foldlM _ _ _ applies path fun instruction member => by
          rw [← Bool.not_eq_true, overlaps_iff, not_or]
          refine ⟨outside instruction member, ?_⟩
          intro onTheWay
          exact (nowhere instruction member).2 onTheWay fields isFields
      rw [unchanged, missing] at found
      cases found

/-- Setting a nested field creates the document on the way to it. -/
theorem update_changes_only_targets_nested :
    ∃ apply changed instructions,
      compileUpdate
          [(utf16 "$set", .document [(utf16 "a.b", .boolean true)])] =
        .ok apply ∧
      apply [(utf16 "c", .null)] = .ok changed ∧
      parseUpdate
          [(utf16 "$set", .document [(utf16 "a.b", .boolean true)])] =
        .ok instructions ∧
      (∀ path,
        (∀ instruction ∈ instructions,
          ¬ instruction.segments <+: path ∧
            ¬ path <+: instruction.segments) →
        resolveField changed path =
          resolveField [(utf16 "c", .null)] path) := by
  have applies :
      (parseUpdate
          [(utf16 "$set", .document [(utf16 "a.b", .boolean true)])] >>=
        fun instructions =>
          instructions.foldlM applyInstruction [(utf16 "c", .null)]) =
        .ok [(utf16 "c", .null),
          (utf16 "a", .document [(utf16 "b", .boolean true)])] := by
    decide +kernel
  obtain ⟨instructions, parses, applies⟩ := Result.bind_eq_ok.mp applies
  have compiles :
      compileUpdate
          [(utf16 "$set", .document [(utf16 "a.b", .boolean true)])] =
        .ok fun document => instructions.foldlM applyInstruction document := by
    rw [compileUpdate, parses]
    rfl
  obtain ⟨named, alsoParses, unchanged, -, -⟩ :=
    update_changes_only_targets compiles applies
  exact ⟨_, _, named, compiles, applies, alsoParses, unchanged⟩

/-- A field inside the new value of a target is found only afterwards. -/
theorem not_new_fields_are_targets :
    ¬ ∀ update apply document changed instructions path value,
      compileUpdate update = .ok apply →
      apply document = .ok changed →
      parseUpdate update = .ok instructions →
      resolveField document path = none →
      resolveField changed path = some value →
        ∃ instruction ∈ instructions,
          path = instruction.segments ∨
            path <+: instruction.segments ∧
              ∃ fields, value = .document fields := by
  intro claimed
  have parses :
      parseUpdate
          [(utf16 "$set",
            .document [(utf16 "a", .document [(utf16 "b", .null)])])] =
        .ok [⟨.set, utf16 "a", [utf16 "a"],
          .document [(utf16 "b", .null)]⟩] := by
    decide +kernel
  obtain ⟨instruction, member, isTarget⟩ :=
    claimed _ _ [] [(utf16 "a", .document [(utf16 "b", .null)])] _
      [utf16 "a", utf16 "b"] .null
      (by rw [compileUpdate, parses]; rfl) (by decide +kernel) parses
      (by decide +kernel) (by decide +kernel)
  obtain rfl := List.mem_singleton.mp member
  revert isTarget
  simp

end SinterDb
