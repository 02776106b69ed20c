import SinterDb.Storage.CleanUpdate
import SinterDb.Storage.DecodableRun
import SinterDb.Storage.FindScan
import SinterDb.Storage.Readable
import SinterDb.Storage.UpdateAgain

namespace SinterDb

open Unicode

/-!
# An upserted document matches its filter

The filter is read twice: `compileFilter` makes a test of it, and
`seedDocumentFromFilter` builds a document.  Where all conditions are
equalities, the test accepts what is built, also after an update that keeps to
other paths.  The stored bytes are decoded before they are tested again, and
the decoder drops byte order marks: the same call finds the document again
exactly when the decoded one still has what the filter asks for.
-/

/-- The value that a condition asks for: the condition itself, or the operand
of its only operator. -/
inductive Demands : DocumentValue → DocumentValue → Prop where
  | plain
      {value : DocumentValue}
      (noOperators :
        ∀ fields, value = .document fields → hasOperators fields = false) :
      Demands value value
  | operator
      (expected : DocumentValue) :
      Demands (.document [(utf16 "$eq", expected)]) expected

/-- All conditions of a filter are equalities of fields. -/
def AllEqualities (filter : Document) : Prop :=
  ∀ field ∈ filter,
    startsWithDollar field.1 = false ∧ ∃ expected, Demands field.2 expected

/-- No path of an update overlaps a path of a filter. -/
def ApartFrom (filter update : Document) : Prop :=
  ∀ name operands, (name, .document operands) ∈ update →
    ∀ operand ∈ operands, ∀ field ∈ filter,
      overlaps (splitPath operand.1) (splitPath field.1) = false

/-- The document has at every path of the filter what the filter asks for. -/
def Satisfies (filter document : Document) : Prop :=
  ∀ field ∈ filter, ∀ expected, Demands field.2 expected →
    resolveField document (splitPath field.1) = some expected

/-- The document has at every path of the filter a value with the encoding of
what the filter asks for. -/
def Fulfils (filter document : Document) : Prop :=
  ∀ field ∈ filter, ∀ expected, Demands field.2 expected →
    ∃ actual, resolveField document (splitPath field.1) = some actual ∧
      actual.raw = expected.raw

/-- The stored form of the document can be decoded, and what is decoded still
has what the filter asks for. -/
def Survives (filter document : Document) : Prop :=
  ∃ encoded decoded, encodeDocument document = .ok encoded ∧
    decodeDocument encoded = .ok decoded ∧ Fulfils filter decoded

section Compiling

variable
  {value expected : DocumentValue}

/-- The name of the equality operator starts with a dollar sign. -/
theorem hasOperators_eq
    (expected : DocumentValue) :
    hasOperators [(utf16 "$eq", expected)] = true := by
  have operator : startsWithDollar (utf16 "$eq") = true := by decide +kernel
  simp [hasOperators, operator]

/-- A seed takes the value that a condition asks for. -/
theorem Demands.extractEquality
    (demands : Demands value expected) :
    SinterDb.extractEquality value = some expected := by
  cases demands with
  | plain noOperators =>
      cases value with
      | document fields =>
          simp [SinterDb.extractEquality, noOperators fields rfl]
      | _ =>
          rfl
  | operator =>
      simp [SinterDb.extractEquality, hasOperators_eq, Document.get?]

/-- An equality is compiled to a comparison with the encoding of its value. -/
theorem Demands.compileField
    (demands : Demands value expected)
    {path : JsString}
    {field : CompiledField}
    (compiles : SinterDb.compileField path value = .ok field) :
    field.segments = splitPath path ∧
      ∃ bytes, encodeDocumentValue expected = .ok bytes ∧
        field.predicates =
          [fun found =>
            match found with
            | none => false
            | some actual => canonicalEquals actual bytes] := by
  have equality :
      ∀ {predicate}, compileEqualityPredicate expected = .ok predicate →
        ∃ bytes, encodeDocumentValue expected = .ok bytes ∧
          predicate =
            fun found =>
              match found with
              | none => false
              | some actual => canonicalEquals actual bytes := by
    intro predicate compiles
    obtain ⟨bytes, lifts, same⟩ := Result.bind_eq_ok.mp compiles
    refine ⟨bytes, ?_, (Except.ok.inj same).symm⟩
    cases encodes : encodeDocumentValue expected with
    | error error =>
        rw [encodes] at lifts
        cases lifts
    | ok encoded =>
        rw [encodes] at lifts
        exact congrArg Except.ok (Except.ok.inj lifts)
  unfold SinterDb.compileField at compiles
  obtain ⟨segments, splits, compiles⟩ := Result.bind_eq_ok.mp compiles
  have isPath : segments = splitPath path := by
    unfold compileFieldPath at splits
    split_ifs at splits
    · cases splits
    · obtain ⟨_, -, splits⟩ := Result.bind_eq_ok.mp splits
      exact (Except.ok.inj splits).symm
  subst isPath
  have plainly :
      (do
          let predicate ← compileEqualityPredicate expected
          return (⟨splitPath path, [predicate]⟩ : CompiledField)) =
        Except.ok field →
      field.segments = splitPath path ∧
        ∃ bytes, encodeDocumentValue expected = .ok bytes ∧
          field.predicates =
            [fun found =>
              match found with
              | none => false
              | some actual => canonicalEquals actual bytes] := by
    intro compiles
    obtain ⟨predicate, isPredicate, same⟩ := Result.bind_eq_ok.mp compiles
    obtain rfl := Except.ok.inj same
    obtain ⟨bytes, encodes, rfl⟩ := equality isPredicate
    exact ⟨rfl, bytes, encodes, rfl⟩
  cases demands with
  | plain noOperators =>
      cases value with
      | document fields =>
          simp only [noOperators fields rfl, Bool.false_eq_true,
            if_false] at compiles
          exact plainly compiles
      | _ =>
          exact plainly compiles
  | operator =>
      simp only [hasOperators_eq, if_true] at compiles
      obtain ⟨predicates, isPredicates, same⟩ :=
        Result.bind_eq_ok.mp compiles
      obtain rfl := Except.ok.inj same
      obtain ⟨_, -, isPredicates⟩ := Result.bind_eq_ok.mp isPredicates
      rw [compileOperators] at isPredicates
      obtain ⟨predicate, isPredicate, isPredicates⟩ :=
        Result.bind_eq_ok.mp isPredicates
      unfold compileOperator at isPredicate
      rw [if_pos rfl] at isPredicate
      rw [compileOperators] at isPredicates
      obtain rfl := Except.ok.inj isPredicates
      obtain ⟨bytes, encodes, rfl⟩ := equality isPredicate
      exact ⟨rfl, bytes, encodes, rfl⟩

/-- A condition asks for one value. -/
theorem Demands.unique
    {other : DocumentValue}
    (demands : Demands value expected)
    (again : Demands value other) :
    other = expected :=
  Option.some.inj
    (again.extractEquality.symm.trans demands.extractEquality)

/-- A filter of equalities accepts exactly the documents that have values with
the same encodings. -/
theorem accepts_iff
    {filter document : Document}
    {clauses : CompiledClauses}
    (equalities : AllEqualities filter)
    (compiles : compileClauses filter = .ok clauses) :
    clauses.test document = true ↔ Fulfils filter document := by
  induction filter generalizing clauses with
  | nil =>
      rw [compileClauses] at compiles
      obtain rfl := Except.ok.inj compiles
      exact iff_of_true rfl fun _ member => by cases member
  | cons field rest inductionHypothesis =>
      obtain ⟨path, value⟩ := field
      unfold AllEqualities at equalities
      rw [List.forall_mem_cons] at equalities
      obtain ⟨⟨isField, expected, demands⟩, equalities⟩ := equalities
      rw [compileClauses, if_neg (by simpa using isField)] at compiles
      obtain ⟨compiled, isCompiled, compiles⟩ := Result.bind_eq_ok.mp compiles
      obtain ⟨later, isLater, same⟩ := Result.bind_eq_ok.mp compiles
      obtain rfl := Except.ok.inj same
      obtain ⟨isPath, bytes, encodes, predicates⟩ :=
        demands.compileField isCompiled
      obtain ⟨-, -, rfl⟩ := encodeDocumentValue_ok.mp encodes
      have first :
          (∀ other, Demands value other →
            ∃ actual, resolveField document (splitPath path) = some actual ∧
              actual.raw = other.raw) ↔
          ∃ actual, resolveField document (splitPath path) = some actual ∧
            actual.raw = expected.raw := by
        refine ⟨fun holds => holds expected demands, ?_⟩
        intro holds other isOther
        obtain rfl := demands.unique isOther
        exact holds
      have rest := inductionHypothesis equalities isLater
      unfold Fulfils at rest ⊢
      rw [List.forall_mem_cons, first, ← rest]
      unfold CompiledClauses.test matchesCompiledFilter
      cases found : resolveField document (splitPath path) with
      | none =>
          simp [isPath, predicates, found]
      | some actual =>
          simp only [isPath, predicates, found, canonicalEquals, canonicalKey,
            List.all_cons, List.all_nil, Bool.and_true, Bool.and_eq_true,
            Option.some.injEq, exists_eq_left', and_assoc]
          exact and_congr_left' decide_eq_true_iff

/-- The clauses of a filter that is compiled. -/
theorem compileFilter_clauses
    {filter : Document}
    {test : CompiledFilter}
    (compiles : compileFilter filter = .ok test) :
    (∃ bytes, encodeDocument filter = .ok bytes) ∧
      ∃ clauses, compileClauses filter = .ok clauses ∧
        test = clauses.test := by
  unfold compileFilter at compiles
  simp only at compiles
  split at compiles
  · rename_i clauses isClauses
    obtain ⟨bytes, lifts, isClauses⟩ := Result.bind_eq_ok.mp isClauses
    refine ⟨⟨bytes, ?_⟩, clauses, isClauses, (Except.ok.inj compiles).symm⟩
    cases encodes : encodeDocument filter with
    | error error =>
        rw [encodes] at lifts
        cases lifts
    | ok encoded =>
        rw [encodes] at lifts
        exact congrArg Except.ok (Except.ok.inj lifts)
  · cases compiles
  · cases compiles

/-- A compiled filter of equalities accepts exactly the documents that have
values with the same encodings. -/
theorem passes_iff
    {filter document : Document}
    {test : CompiledFilter}
    (equalities : AllEqualities filter)
    (compiles : compileFilter filter = .ok test) :
    test document = true ↔ Fulfils filter document := by
  obtain ⟨-, clauses, isClauses, rfl⟩ := compileFilter_clauses compiles
  exact accepts_iff equalities isClauses

end Compiling

section Seeding

variable
  {filter update seed result document : Document}
  {assigned : List (List JsString)}

/-- Overlapping is mutual. -/
theorem overlaps_comm
    (left right : List JsString) :
    overlaps left right = overlaps right left := by
  rw [Bool.eq_iff_iff, overlaps_iff, overlaps_iff, or_comm]

/-- A path of dots and names has a segment. -/
theorem splitPath_ne_nil
    (path : JsString) :
    splitPath path ≠ [] :=
  List.splitOn_ne_nil _ _

/-- The loop of `seedDocumentFromFilter` keeps what is assigned, and assigns
what the rest of the filter asks for. -/
theorem seedFields_satisfies
    (seeds : seedFields assigned seed filter = .ok result) :
    (∀ path ∈ assigned, resolveField result path = resolveField seed path) ∧
      ∀ field ∈ filter, startsWithDollar field.1 = false →
        ∀ expected, extractEquality field.2 = some expected →
          resolveField result (splitPath field.1) = some expected := by
  induction filter generalizing assigned seed with
  | nil =>
      obtain rfl := Except.ok.inj seeds
      exact ⟨fun _ _ => rfl, nofun⟩
  | cons field rest inductionHypothesis =>
      obtain ⟨key, value⟩ := field
      rw [List.forall_mem_cons]
      unfold seedFields at seeds
      split_ifs at seeds with isOperator
      · obtain ⟨kept, later⟩ := inductionHypothesis seeds
        refine ⟨kept, ?_, later⟩
        intro notOperator
        rw [isOperator] at notOperator
        cases notOperator
      · split at seeds
        · rename_i noEquality
          obtain ⟨kept, later⟩ := inductionHypothesis seeds
          refine ⟨kept, ?_, later⟩
          intro _ expected isExpected
          rw [noEquality] at isExpected
          cases isExpected
        · rename_i equality isEquality
          simp only at seeds
          split_ifs at seeds with refused
          obtain ⟨next, assigns, seeds⟩ := Result.bind_eq_ok.mp seeds
          obtain ⟨kept, later⟩ := inductionHypothesis seeds
          simp only [Bool.or_eq_true, not_or, List.any_eq_true, not_exists,
            not_and] at refused
          refine ⟨?_, ?_, later⟩
          · intro path member
            rw [kept path (List.mem_append_left _ member)]
            refine resolveField_changeParent ?_ assigns ?_
            · intro key parent changed other sets notKey
              obtain rfl := Except.ok.inj sets
              rw [Document.get?_set, if_neg notKey]
            · rw [overlaps_comm]
              exact Bool.eq_false_iff.mpr (refused.2 path member)
          · intro _ expected isExpected
            obtain rfl := Option.some.inj (isEquality.symm.trans isExpected)
            rw [kept _ (List.mem_append_right _ (List.mem_singleton_self _))]
            refine @resolveField_target _ (· = some equality) ?_ _ _ _ _
              assigns (splitPath_ne_nil key)
            intro key parent after sets
            obtain rfl := Except.ok.inj sets
            rw [Document.get?_set, if_pos rfl]

/-- What an upsert makes of a filter of equalities and an update of other paths
has everything that the filter asks for. -/
theorem satisfies_of_seed
    {apply : CompiledUpdate}
    (equalities : AllEqualities filter)
    (compiles : compileUpdate update = .ok apply)
    (apart : ApartFrom filter update)
    (seeds : seedDocumentFromFilter filter >>= apply = .ok document) :
    Satisfies filter document := by
  obtain ⟨seed, isSeed, applies⟩ := Result.bind_eq_ok.mp seeds
  obtain ⟨instructions, parses, same⟩ := compileUpdate_instructions compiles
  obtain ⟨isParsed, -⟩ := parseUpdate_ok parses
  rw [same] at applies
  intro field member expected demands
  rw [resolveField_foldlM applies]
  · exact (seedFields_satisfies isSeed).2 field member
      (equalities field member).1 expected demands.extractEquality
  · intro instruction isInstruction
    obtain ⟨isPath, name, operands, isOperator, isOperand⟩ :=
      parseOperators_mem isParsed instruction isInstruction
    rw [(parsePath_ok isPath).1]
    exact apart name operands isOperator _ isOperand field member

/-- The compiled filter accepts a document that has what the filter asks
for. -/
theorem Satisfies.accepted
    {test : CompiledFilter}
    (satisfies : Satisfies filter document)
    (equalities : AllEqualities filter)
    (compiles : compileFilter filter = .ok test) :
    test document = true := by
  refine (passes_iff equalities compiles).mpr ?_
  intro field member expected demands
  exact ⟨expected, satisfies field member expected demands, rfl⟩

end Seeding

/-- No path of the filter and no text in the values that it asks for starts
with a byte order mark. -/
def Readable (filter : Document) : Prop :=
  ∀ field ∈ filter,
    (∀ segment ∈ splitPath field.1, startsWithBom segment = false) ∧
      ∀ expected, Demands field.2 expected → expected.Unmarked

section Decoding

variable
  {filter document decoded : Document}

/-- A field without a byte order mark is found again in what is decoded. -/
theorem get?_restored
    {key : JsString}
    {value : DocumentValue}
    (restores :
      (DocumentValue.document document).restore = .ok (.document decoded))
    (unmarked : startsWithBom key = false)
    (found : Document.get? document key = some value) :
    ∃ restored, Document.get? decoded key = some restored ∧
      value.restore = .ok restored := by
  obtain ⟨built, restored, same, distinct, results, reordered⟩ :=
    DocumentValue.restore_document_ok restores
  obtain rfl := DocumentValue.document.inj same
  have inSorted :=
    (sortFields_perm document).mem_iff.mpr (Document.mem_of_get? found)
  obtain ⟨⟨resultKey, result⟩, inRestored, isKey, isValue⟩ :=
    Lists.exists_of_mem_left results inSorted
  rw [stripBom_eq_self unmarked] at isKey
  obtain rfl : resultKey = key := isKey
  exact ⟨result, Document.get?_of_mem distinct
    (reordered.mem_iff.mpr inRestored), isValue⟩

/-- A value at a path without byte order marks is found again in what is
decoded. -/
theorem resolveField_restored
    {path : List JsString}
    {value : DocumentValue}
    (restores :
      (DocumentValue.document document).restore = .ok (.document decoded))
    (unmarked : ∀ segment ∈ path, startsWithBom segment = false)
    (found : resolveField document path = some value) :
    ∃ restored, resolveField decoded path = some restored ∧
      value.restore = .ok restored := by
  induction path generalizing document decoded with
  | nil =>
      cases found
  | cons segment rest inductionHypothesis =>
      rw [List.forall_mem_cons] at unmarked
      cases rest with
      | nil =>
          exact get?_restored restores unmarked.1 found
      | cons next rest =>
          rw [resolveField] at found
          · split at found
            · rename_i inner isInner
              obtain ⟨restored, isRestored, innerRestores⟩ :=
                get?_restored restores unmarked.1 isInner
              obtain ⟨built, -, rfl, -⟩ :=
                DocumentValue.restore_document_ok innerRestores
              obtain ⟨value, isValue, valueRestores⟩ :=
                inductionHypothesis innerRestores unmarked.2 found
              refine ⟨value, ?_, valueRestores⟩
              rw [resolveField, isRestored]
              · exact isValue
              · simp
            · cases found
          · simp

/-- What a filter asks for has no key twice when the filter has none. -/
theorem Demands.distinctKeys
    {value expected : DocumentValue}
    (demands : Demands value expected)
    (distinct : value.DistinctKeys) :
    expected.DistinctKeys := by
  cases demands with
  | plain _ =>
      exact distinct
  | operator =>
      exact ((DocumentValue.allNodes_document _ _).mp distinct).2 _
        (List.mem_singleton_self _)

/-- A document that has what a readable filter asks for, and whose stored form
can be decoded, survives. -/
theorem Satisfies.survives
    {encoded : Bytes}
    (satisfies : Satisfies filter document)
    (distinct : (DocumentValue.document filter).DistinctKeys)
    (readable : Readable filter)
    (encodes : encodeDocument document = .ok encoded)
    (decodes : decodeDocument encoded = .ok decoded) :
    Survives filter document := by
  refine ⟨encoded, decoded, encodes, decodes, ?_⟩
  intro field member expected demands
  obtain ⟨unmarkedPath, unmarkedValue⟩ := readable field member
  have unmarked := unmarkedValue expected demands
  have expectedDistinct :=
    demands.distinctKeys
      (((DocumentValue.allNodes_document _ filter).mp distinct).2 field
        member)
  obtain ⟨restored, found, restores⟩ :=
    resolveField_restored (decodeDocument_of_encoded encodes decodes)
      unmarkedPath (satisfies field member expected demands)
  refine ⟨restored, found, ?_⟩
  obtain ⟨result, isResult, same⟩ :=
    DocumentValue.restore_of_unmarked expectedDistinct unmarked
  obtain rfl := Except.ok.inj (isResult.symm.trans restores)
  have hasKey :=
    hasKey_of_resolveField (hasKey_of_decoded encodes decodes) found
  exact DocumentValue.SameValue.raw_eq
    (DocumentValue.restore_distinctKeys restores) expectedDistinct
    (hasKey_iff.mp hasKey).1.1 same

/-- A filter of equalities without byte order marks is readable. -/
theorem CleanFilter.readable
    (clean : CleanFilter filter)
    (equalities : AllEqualities filter) :
    Readable filter := by
  intro field member
  obtain ⟨isPath, isValue⟩ := clean field member (equalities field member).1
  refine ⟨isPath, ?_⟩
  intro expected demands
  generalize field.2 = value at isValue demands
  cases demands with
  | plain _ =>
      exact isValue.2
  | operator =>
      exact ((DocumentValue.allNodes_document _ _).mp isValue.2).2 _
        (List.mem_singleton_self _)

/-- A lookup depends on the field that its path starts with. -/
theorem resolveField_congr
    {other : Document}
    {path : List JsString}
    (same :
      ∀ segment, path.head? = some segment →
        Document.get? document segment = Document.get? other segment) :
    resolveField document path = resolveField other path := by
  cases path with
  | nil =>
      rfl
  | cons segment rest =>
      have sameField := same segment rfl
      cases rest with
      | nil =>
          exact sameField
      | cons next rest =>
          rw [resolveField, resolveField, sameField]
          · simp
          · simp

/-- A document that is given its id still has what the filter asks for. -/
theorem Satisfies.withId
    {generated id : CustomId}
    (satisfies : Satisfies filter document)
    (resolves : resolveDocumentId generated document = .ok id) :
    Satisfies filter (Document.set document idField (.customId id)) := by
  intro field member expected demands
  have found := satisfies field member expected demands
  rw [← found]
  refine resolveField_congr fun segment isHead => ?_
  rw [Document.get?_set]
  split_ifs with isId
  · subst isId
    unfold resolveDocumentId at resolves
    split at resolves
    · rename_i absent
      -- The filter asks for nothing at the id, which the document lacks.
      have empty : resolveField document (splitPath field.1) = none := by
        cases isPath : splitPath field.1 with
        | nil =>
            rfl
        | cons first rest =>
            rw [isPath] at isHead
            obtain rfl := Option.some.inj isHead
            cases rest with
            | nil =>
                exact absent
            | cons next rest =>
                rw [resolveField, absent]
                simp
      rw [empty] at found
      cases found
    · rename_i stored isStored
      obtain rfl := Except.ok.inj resolves
      exact isStored.symm
    · cases resolves
  · rfl

end Decoding

/-- The encoding of an id tells it. -/
theorem customId_of_raw
    {id other : CustomId}
    (same :
      (DocumentValue.customId id).raw = (DocumentValue.customId other).raw) :
    id = other := by
  obtain ⟨bytes, length⟩ := id
  obtain ⟨otherBytes, otherLength⟩ := other
  simpa [DocumentValue.raw] using same

namespace Collection

section Searching

variable
  {test : CompiledFilter}
  {entries rest : List (JsString × Bytes)}

/-- No candidate matches when the first match is none. -/
theorem unmatched_of_firstMatch
    (finds : firstMatch test entries = .ok none) :
    ∀ entry ∈ entries, ∃ document,
      decodeDocument entry.2 = .ok document ∧ test document = false := by
  induction entries with
  | nil =>
      nofun
  | cons entry rest inductionHypothesis =>
      obtain ⟨key, encoded⟩ := entry
      obtain ⟨document, decodes, finds⟩ := Result.bind_eq_ok.mp finds
      split_ifs at finds with passes
      · cases finds
      · rw [List.forall_mem_cons]
        exact ⟨⟨document, decodes_of_lift decodes,
          by simpa using passes⟩, inductionHypothesis finds⟩

/-- Candidates that do not match are passed over. -/
theorem firstMatch_append
    (mismatch :
      ∀ entry ∈ entries, ∃ document,
        decodeDocument entry.2 = .ok document ∧ test document = false) :
    firstMatch test (entries ++ rest) = firstMatch test rest := by
  induction entries with
  | nil =>
      rfl
  | cons entry entries inductionHypothesis =>
      rw [List.forall_mem_cons] at mismatch
      obtain ⟨⟨document, decodes, fails⟩, later⟩ := mismatch
      rw [List.cons_append, firstMatch]
      simp only [decodes, liftProtocol, Result.ok_bind, fails,
        Bool.false_eq_true, if_false]
      exact inductionHypothesis later

/-- Candidates that do not match are no matches. -/
theorem allMatches_append
    (mismatch :
      ∀ entry ∈ entries, ∃ document,
        decodeDocument entry.2 = .ok document ∧ test document = false) :
    allMatches test (entries ++ rest) = allMatches test rest := by
  induction entries with
  | nil =>
      rfl
  | cons entry entries inductionHypothesis =>
      rw [List.forall_mem_cons] at mismatch
      obtain ⟨⟨document, decodes, fails⟩, later⟩ := mismatch
      rw [List.cons_append, allMatches]
      simp only [decodes, liftProtocol, Result.ok_bind, fails,
        Bool.false_eq_true, if_false, inductionHypothesis later]
      cases allMatches test rest <;> rfl

/-- The first match passes the test. -/
theorem passes_of_firstMatch
    {located : LocatedDocument}
    (finds : firstMatch test entries = .ok (some located)) :
    test located.document = true := by
  induction entries with
  | nil =>
      cases finds
  | cons entry rest inductionHypothesis =>
      obtain ⟨document, -, finds⟩ := Result.bind_eq_ok.mp finds
      split_ifs at finds with passes
      · obtain rfl := Option.some.inj (Except.ok.inj finds)
        exact passes
      · exact inductionHypothesis finds

/-- All matches pass the test. -/
theorem passes_of_allMatches
    {found : List LocatedDocument}
    (finds : allMatches test entries = .ok found) :
    ∀ located ∈ found, test located.document = true := by
  induction entries generalizing found with
  | nil =>
      obtain rfl := Except.ok.inj finds
      nofun
  | cons entry rest inductionHypothesis =>
      obtain ⟨document, -, finds⟩ := Result.bind_eq_ok.mp finds
      obtain ⟨later, isLater, same⟩ := Result.bind_eq_ok.mp finds
      have sameFound := Except.ok.inj same
      split_ifs at sameFound with passes
      · rw [← sameFound, List.forall_mem_cons]
        exact ⟨passes, inductionHypothesis isLater⟩
      · rw [← sameFound]
        exact inductionHypothesis isLater

/-- The loop of `updateMany` counts all matches. -/
theorem matched_collectUpdates
    {indexed : Bool}
    {apply : CompiledUpdate}
    {updates : PendingUpdates}
    {found : List LocatedDocument}
    (collects : collectUpdates indexed test apply entries = .ok updates)
    (finds : allMatches test entries = .ok found) :
    updates.matched = found.length := by
  induction entries generalizing updates found with
  | nil =>
      obtain rfl := Except.ok.inj collects
      obtain rfl := Except.ok.inj finds
      rfl
  | cons entry rest inductionHypothesis =>
      obtain ⟨key, encoded⟩ := entry
      obtain ⟨first, isFirst, collects⟩ := Result.bind_eq_ok.mp collects
      obtain ⟨later, isLater, same⟩ := Result.bind_eq_ok.mp collects
      obtain rfl := Except.ok.inj same
      obtain ⟨document, decodes, finds⟩ := Result.bind_eq_ok.mp finds
      obtain ⟨others, isMatches, same⟩ := Result.bind_eq_ok.mp finds
      have counts := inductionHypothesis isLater isMatches
      obtain ⟨other, again, isFirst⟩ := Result.bind_eq_ok.mp isFirst
      obtain rfl := Except.ok.inj (again.symm.trans decodes)
      rw [← Except.ok.inj same]
      cases passes : test other with
      | false =>
          simp only [passes, Bool.not_false, if_true] at isFirst
          obtain rfl := Except.ok.inj isFirst
          simp [PendingUpdates.append, counts]
      | true =>
          simp only [passes, Bool.not_true, Bool.false_eq_true,
            if_false] at isFirst
          obtain ⟨pending, -, isFirst⟩ := Result.bind_eq_ok.mp isFirst
          have isOne : first.matched = 1 := by
            cases pending with
            | none =>
                rw [← Except.ok.inj isFirst]
            | some prepared =>
                simp only at isFirst
                split_ifs at isFirst
                · rw [← Except.ok.inj isFirst]
                · obtain ⟨after, -, same⟩ := Result.bind_eq_ok.mp isFirst
                  rw [← Except.ok.inj same]
          simp [PendingUpdates.append, counts, isOne, Nat.add_comm]

end Searching

section Locating

variable
  {collection : Collection}
  {filter : Document}
  {test : CompiledFilter}

/-- What is located passes the test. -/
theorem passes_of_locate
    {located : LocatedDocument}
    (finds : collection.locate filter test = .ok (some located)) :
    test located.document = true := by
  unfold locate at finds
  split at finds
  · simp only at finds
    split at finds
    · cases finds
    · obtain ⟨document, -, finds⟩ := Result.bind_eq_ok.mp finds
      have isLocated := Except.ok.inj finds
      split_ifs at isLocated with passes
      obtain rfl := Option.some.inj isLocated
      exact passes
  · exact passes_of_firstMatch finds

/-- A filter that names no id is answered by the first match. -/
theorem locate_of_noId
    (noId : ∀ id, Document.get? filter idField ≠ some (.customId id)) :
    collection.locate filter test =
      firstMatch test (collection.candidates filter) := by
  unfold locate
  split
  · rename_i id isId
    exact absurd isId (noId id)
  · rfl

/-- Without indexes all documents are candidates. -/
theorem candidates_of_isEmpty
    (noIndexes : IndexSet.isEmpty collection.indexes = true) :
    collection.candidates filter = collection.documents.entries := by
  unfold candidates planKeys
  rw [if_pos noIndexes]

/-- A stored document that is accepted when it is decoded is a candidate. -/
theorem mem_candidates_of_passes
    {key : JsString}
    {encoded : Bytes}
    {decoded : Document}
    (sound : collection.Sound)
    (compiles : compileFilter filter = .ok test)
    (stored : (key, encoded) ∈ collection.documents.entries)
    (decodes : decodeDocument encoded = .ok decoded)
    (passes : test decoded = true) :
    (key, encoded) ∈ collection.candidates filter := by
  rw [candidates_eq sound, List.mem_filter]
  refine ⟨stored, ?_⟩
  rw [Option.all_eq_true]
  intro keys isKeys
  exact decide_eq_true
    (mem_planKeys sound compiles stored decodes passes isKeys)

/-- A document that a filter of equalities accepts is stored under the id that
the filter names. -/
theorem key_of_passes
    {key : JsString}
    {encoded : Bytes}
    {decoded : Document}
    {id : CustomId}
    (sound : collection.Sound)
    (equalities : AllEqualities filter)
    (compiles : compileFilter filter = .ok test)
    (stored : (key, encoded) ∈ collection.documents.entries)
    (decodes : decodeDocument encoded = .ok decoded)
    (passes : test decoded = true)
    (isId : Document.get? filter idField = some (.customId id)) :
    id.toHexString = key := by
  obtain ⟨-, own, hasId, rfl⟩ := (sound.stored key encoded stored).decoded
    decodes
  obtain ⟨actual, found, sameRaw⟩ :=
    (passes_iff equalities compiles).mp passes _
      (Document.mem_of_get? isId) (.customId id) (.plain (by nofun))
  rw [splitPath_idField] at found
  obtain rfl := Option.some.inj (hasId.symm.trans found)
  rw [customId_of_raw sameRaw]

/-- When a write finds nothing to change, no stored document is accepted when
it is decoded. -/
theorem Unmatched.mismatch
    {key : JsString}
    {encoded : Bytes}
    {decoded : Document}
    (unmatched : collection.Unmatched filter test)
    (sound : collection.Sound)
    (equalities : AllEqualities filter)
    (compiles : compileFilter filter = .ok test)
    (stored : (key, encoded) ∈ collection.documents.entries)
    (decodes : decodeDocument encoded = .ok decoded) :
    test decoded = false := by
  by_contra accepted
  have passes : test decoded = true := by simpa using accepted
  have noCandidate : ¬ collection.NoCandidate filter test := by
    intro noCandidate
    obtain ⟨other, isOther, fails⟩ :=
      noCandidate _
        (mem_candidates_of_passes sound compiles stored decodes passes)
    obtain rfl := Except.ok.inj (isOther.symm.trans decodes)
    rw [passes] at fails
    cases fails
  rcases unmatched with finds | unmatched
  · unfold locate at finds
    split at finds
    · rename_i id isId
      have isKey :=
        key_of_passes sound equalities compiles stored decodes passes isId
      simp only [isKey, JsMap.get?_eq_some.mpr stored] at finds
      obtain ⟨other, isOther, finds⟩ := Result.bind_eq_ok.mp finds
      obtain rfl :=
        Except.ok.inj ((decodes_of_lift isOther).symm.trans decodes)
      rw [if_pos passes] at finds
      cases finds
    · exact noCandidate (unmatched_of_firstMatch finds)
  · exact noCandidate unmatched

/-- The keys stay when a write may insert nothing. -/
theorem keys_of_upserting
    {write : Write StorageUpdateResult}
    (upserting : Upserting collection (fun _ _ => False) write)
    (answer : Except Thrown Unit) :
    (write.run answer).1.documents.keys = collection.documents.keys := by
  rcases upserting answer with ⟨keeps, -⟩ | ⟨_, _, impossible, -⟩
  · exact keeps
  · exact impossible.elim

/-- Tracked changes that are committed return the result of the write. -/
theorem result_of_trackAndCommit
    {α : Type}
    {changes : List DocumentChange}
    {operations : List JournalOperation}
    {change : Collection → Collection}
    {value result : α}
    {answer : Except Thrown Unit}
    (returns :
      ((collection.trackAndCommit changes operations change value).run
        answer).2 = .ok result) :
    result = value := by
  unfold trackAndCommit at returns
  split at returns
  · cases returns
  · unfold commit at returns
    split_ifs at returns
    · exact (Except.ok.inj returns).symm
    · cases answer with
      | error error =>
          cases returns
      | ok _ =>
          exact (Except.ok.inj returns).symm

end Locating

section Inserted

variable
  {collection after : Collection}
  {filter : Document}
  {test : CompiledFilter}
  {key : JsString}
  {encoded : Bytes}

/-- A document that is inserted and accepted when it is decoded is the last of
the candidates. -/
theorem candidates_of_inserted
    {decoded : Document}
    (sound : after.Sound)
    (compiles : compileFilter filter = .ok test)
    (fresh : key ∉ collection.documents.keys)
    (added : after.documents = collection.documents.set key encoded)
    (decodes : decodeDocument encoded = .ok decoded)
    (passes : test decoded = true) :
    ∃ entries,
      (∀ entry ∈ entries, entry ∈ collection.documents.entries) ∧
        after.candidates filter = entries ++ [(key, encoded)] := by
  have isEntries :
      after.documents.entries =
        collection.documents.entries ++ [(key, encoded)] := by
    rw [added, JsMap.entries_set_of_not_mem fresh]
  have stored : (key, encoded) ∈ after.documents.entries := by
    rw [isEntries]
    simp
  have isCandidate :=
    mem_candidates_of_passes sound compiles stored decodes passes
  rw [candidates_eq sound, List.mem_filter] at isCandidate
  have isCandidates :
      after.candidates filter =
        (collection.documents.entries.filter fun entry =>
          (after.planKeys filter).all fun keys => entry.1 ∈ keys) ++
            [(key, encoded)] := by
    rw [candidates_eq sound, isEntries, List.filter_append]
    simp only [List.filter_cons, isCandidate.2, if_true, List.filter_nil]
  exact ⟨_, fun _ member => (List.mem_filter.mp member).1, isCandidates⟩

/-- No document that was there before an insertion matches, and all of them
are decoded without an error. -/
theorem mismatch_before
    (sound : collection.Sound)
    (decodable : after.Decodable)
    (indexed :
      IndexSet.isEmpty after.indexes = IndexSet.isEmpty collection.indexes)
    (fresh : key ∉ collection.documents.keys)
    (added : after.documents = collection.documents.set key encoded)
    (equalities : AllEqualities filter)
    (compiles : compileFilter filter = .ok test)
    (noCandidate : collection.NoCandidate filter test) :
    ∀ entry ∈ collection.documents.entries, ∃ document,
      decodeDocument entry.2 = .ok document ∧ test document = false := by
  intro entry member
  cases noIndexes : IndexSet.isEmpty collection.indexes with
  | true =>
      refine noCandidate entry ?_
      rw [candidates_of_isEmpty noIndexes]
      exact member
  | false =>
      rw [noIndexes] at indexed
      have stored : entry ∈ after.documents.entries := by
        rw [added, JsMap.entries_set_of_not_mem fresh]
        exact List.mem_append_left _ member
      obtain ⟨document, decodes⟩ := decodable indexed entry stored
      exact ⟨document, decodes,
        Unmatched.mismatch (.inr noCandidate) sound equalities compiles member
          decodes⟩

end Inserted

end Collection

namespace Upsert

/-- The upsert is one of the two that apply an update. -/
def Applies (update : Document) (upsert : Upsert) : Prop :=
  upsert = .updateOne update ∨ upsert = .updateMany update

/-- The call looks for documents and finds none. -/
def Misses
    (filter : Document)
    (test : CompiledFilter)
    (collection : Collection) : Upsert → Prop
  | .updateMany _ => collection.NoCandidate filter test
  | _ => collection.locate filter test = .ok none

/-- The call looks for documents and finds the one with the id: `updateMany`
among all matches, the others as the document to change. -/
def Finds
    (filter : Document)
    (test : CompiledFilter)
    (id : CustomId)
    (collection : Collection) : Upsert → Prop
  | .updateMany _ =>
      ∃ located, located.key = id.toHexString ∧
        allMatches test (collection.candidates filter) =
          .ok [located]
  | _ =>
      ∃ located, located.key = id.toHexString ∧
        collection.locate filter test = .ok (some located)

/-- How the same upsert goes on where it has inserted a document. -/
structure GoesOn
    (filter : Document)
    (test : CompiledFilter)
    (upsert : Upsert)
    (id : CustomId)
    (document : Document)
    (after : Collection) : Prop where
  stored :
    ∃ encoded, encodeDocument document = .ok encoded ∧
      after.documents.get? id.toHexString = some encoded
  finds_iff : upsert.Finds filter test id after ↔ Survives filter document
  keeps :
    Survives filter document → ∀ again answer,
      ((upsert.write filter after again).run answer).1.documents.keys =
        after.documents.keys
  reports :
    Survives filter document → ∀ again answer result,
      ((upsert.write filter after again).run answer).2 = .ok result →
        result.matchedCount = 1 ∧ result.upsertedId = none

section Updates

variable
  {collection after : Collection}
  {filter update document : Document}
  {test : CompiledFilter}
  {apply : CompiledUpdate}
  {upsert : Upsert}
  {new : CustomId}

/-- A call that misses finds nothing to change. -/
theorem Misses.unmatched
    (misses : upsert.Misses filter test collection) :
    collection.Unmatched filter test := by
  cases upsert with
  | updateMany update =>
      exact .inr misses
  | updateOne update =>
      exact .inl misses
  | replaceOne replacement =>
      exact .inl misses

/-- A call that finds a document does not miss it. -/
theorem Finds.not_misses
    (finds : upsert.Finds filter test new collection) :
    ¬ upsert.Misses filter test collection := by
  have one :
      (∃ located, located.key = new.toHexString ∧
        collection.locate filter test = .ok (some located)) →
      collection.locate filter test ≠ .ok none := by
    rintro ⟨located, -, isLocated⟩ misses
    rw [isLocated] at misses
    cases misses
  cases upsert with
  | updateMany update =>
      obtain ⟨located, -, isMatches⟩ := finds
      intro misses
      have noMatches := @Collection.allMatches_append test _ [] misses
      rw [List.append_nil, isMatches] at noMatches
      cases noMatches
  | updateOne update =>
      exact one finds
  | replaceOne replacement =>
      exact one finds

/-- What a call finds is stored, and passes the test. -/
theorem Finds.located
    (finds : upsert.Finds filter test new collection) :
    ∃ located, located.key = new.toHexString ∧
      collection.IsLocated located ∧ test located.document = true := by
  have one :
      (∃ located, located.key = new.toHexString ∧
        collection.locate filter test = .ok (some located)) →
      ∃ located, located.key = new.toHexString ∧
        collection.IsLocated located ∧ test located.document = true := by
    rintro ⟨located, isKey, isLocated⟩
    exact ⟨located, isKey, Collection.isLocated_of_locate isLocated,
      Collection.passes_of_locate isLocated⟩
  cases upsert with
  | updateMany update =>
      obtain ⟨located, isKey, isMatches⟩ := finds
      refine ⟨located, isKey, ?_, ?_⟩
      · exact Collection.isLocated_of_allMatches
          (fun _ => Collection.mem_candidates) isMatches located
          (List.mem_singleton_self _)
      · exact Collection.passes_of_allMatches isMatches located
          (List.mem_singleton_self _)
  | updateOne update =>
      exact one finds
  | replaceOne replacement =>
      exact one finds

/-- An upsert of an update inserts what it makes of the filter and the
update. -/
theorem upserting_of_applies
    {allowed : CustomId → Document → Prop}
    {generated : CustomId}
    (applies : upsert.Applies update)
    (allows :
      ∀ test apply document id, compileFilter filter = .ok test →
        compileUpdate update = .ok apply →
        upsert.Misses filter test collection →
        seedDocumentFromFilter filter >>= apply = .ok document →
        resolveDocumentId generated document = .ok id →
        allowed id (Document.set document idField (.customId id))) :
    Upserting collection allowed
      (upsert.write filter collection generated) := by
  rcases applies with rfl | rfl
  · exact Collection.upserting_updateOne allows true
  · exact Collection.upserting_updateMany allows true

/-- The call that a collection performs for an upsert. -/
def call
    (filter : Document)
    (generated : CustomId) : Upsert → WriteCall
  | .updateOne update => .updateOne filter update true generated
  | .updateMany update => .updateMany filter update true generated
  | .replaceOne replacement => .replaceOne filter replacement true generated

/-- An upsert leaves what the call of it leaves. -/
theorem run_write
    (generated : CustomId)
    (answer : Except Thrown Unit) :
    ((upsert.write filter collection generated).run answer).1 =
      ((collection.perform (upsert.call filter generated)).run answer).1 := by
  have same :
      ∀ (write : Write StorageUpdateResult)
        (use : StorageUpdateResult → WriteResult),
        (write.run answer).1 = ((write.map use).run answer).1 := by
    intro write use
    cases write <;> rfl
  cases upsert <;> exact same _ _

/-- The same call finds what it has inserted if it can be read back. -/
theorem finds_of_survives
    {encoded : Bytes}
    (sound : collection.Sound)
    (afterSound : after.Sound)
    (decodable : after.Decodable)
    (indexed :
      IndexSet.isEmpty after.indexes = IndexSet.isEmpty collection.indexes)
    (equalities : AllEqualities filter)
    (compiles : compileFilter filter = .ok test)
    (misses : upsert.Misses filter test collection)
    (fresh : new.toHexString ∉ collection.documents.keys)
    (added :
      after.documents = collection.documents.set new.toHexString encoded)
    (encodes : encodeDocument document = .ok encoded)
    (survives : Survives filter document) :
    upsert.Finds filter test new after := by
  obtain ⟨other, decoded, isOther, decodes, meets⟩ := survives
  obtain rfl := Except.ok.inj (isOther.symm.trans encodes)
  have passes := (passes_iff equalities compiles).mpr meets
  have stored :
      (new.toHexString, other) ∈ after.documents.entries := by
    rw [added]
    exact JsMap.mem_entries_set.mpr (.inl rfl)
  obtain ⟨entries, before, isCandidates⟩ :=
    Collection.candidates_of_inserted afterSound compiles fresh added decodes
      passes
  have mismatch :
      collection.NoCandidate filter test →
      ∀ entry ∈ entries, ∃ document,
        decodeDocument entry.2 = .ok document ∧ test document = false :=
    fun noCandidate entry member =>
      Collection.mismatch_before sound decodable indexed fresh added
        equalities compiles noCandidate entry (before entry member)
  have one :
      collection.locate filter test = .ok none →
      ∃ located, located.key = new.toHexString ∧
        after.locate filter test = .ok (some located) := by
    intro missed
    refine ⟨⟨new.toHexString, other, decoded⟩, rfl, ?_⟩
    by_cases named :
        ∃ id, Document.get? filter idField = some (.customId id)
    · obtain ⟨id, isId⟩ := named
      have isKey :=
        Collection.key_of_passes afterSound equalities compiles stored decodes
          passes isId
      unfold Collection.locate
      rw [isId]
      simp only [isKey, JsMap.get?_eq_some.mpr stored, decodes, liftProtocol,
        Result.ok_bind, passes, if_true]
      rfl
    · rw [not_exists] at named
      rw [Collection.locate_of_noId named] at missed ⊢
      rw [isCandidates,
        Collection.firstMatch_append
          (mismatch (Collection.unmatched_of_firstMatch missed)),
        firstMatch]
      simp only [decodes, liftProtocol, Result.ok_bind, passes, if_true]
      rfl
  cases upsert with
  | updateMany update =>
      refine ⟨⟨new.toHexString, other, decoded⟩, rfl, ?_⟩
      rw [isCandidates, Collection.allMatches_append (mismatch misses),
        allMatches]
      simp only [decodes, liftProtocol, Result.ok_bind, passes, if_true]
      rfl
  | updateOne update =>
      exact one misses
  | replaceOne replacement =>
      exact one misses

/-- A call that finds one document, and returns, has matched one. -/
theorem reports_of_finds
    (applies : upsert.Applies update)
    (compiles : compileFilter filter = .ok test)
    (finds : upsert.Finds filter test new collection)
    {again : CustomId}
    {answer : Except Thrown Unit}
    {result : StorageUpdateResult}
    (returns :
      ((upsert.write filter collection again).run answer).2 = .ok result) :
    result.matchedCount = 1 ∧ result.upsertedId = none := by
  rcases applies with rfl | rfl
  · obtain ⟨located, -, isLocated⟩ := finds
    unfold write Collection.updateOne at returns
    cases isUpdate : compileUpdate update with
    | error error =>
        simp only [compiles, isUpdate, Collection.attempt] at returns
        cases returns
    | ok apply =>
        cases prepares : prepareUpdate located apply with
        | error error =>
            simp only [compiles, isUpdate, isLocated, prepares,
              Collection.attempt] at returns
            cases returns
        | ok pending =>
            simp only [compiles, isUpdate, isLocated, prepares,
              Collection.attempt] at returns
            cases pending with
            | none =>
                obtain rfl := Except.ok.inj returns
                exact ⟨rfl, rfl⟩
            | some prepared =>
                simp only [Collection.replaceStored,
                  Collection.attempt] at returns
                split at returns
                · cases returns
                · rw [Collection.result_of_trackAndCommit returns]
                  exact ⟨rfl, rfl⟩
  · obtain ⟨located, -, isMatches⟩ := finds
    unfold write Collection.updateMany at returns
    cases isUpdate : compileUpdate update with
    | error error =>
        simp only [compiles, isUpdate, Collection.attempt] at returns
        cases returns
    | ok apply =>
        cases collects :
            collectUpdates (!IndexSet.isEmpty collection.indexes) test apply
              (collection.candidates filter) with
        | error error =>
            simp only [compiles, isUpdate, collects,
              Collection.attempt] at returns
            cases returns
        | ok updates =>
            have isOne :=
              Collection.matched_collectUpdates collects isMatches
            simp only [compiles, isUpdate, collects, Collection.attempt,
              isOne, List.length_singleton, Nat.one_ne_zero,
              if_false] at returns
            rw [Collection.result_of_trackAndCommit returns]
            exact ⟨rfl, rfl⟩

/-- How an upsert that returned a new id ended. -/
theorem inserted
    {generated : CustomId}
    {answer : Except Thrown Unit}
    {result : StorageUpdateResult}
    (applies : upsert.Applies update)
    (compilesFilter : compileFilter filter = .ok test)
    (compiles : compileUpdate update = .ok apply)
    (returns :
      ((upsert.write filter collection generated).run answer).2 = .ok result)
    (reports : result.upsertedId = some new) :
    ∃ document, seedDocumentFromFilter filter >>= apply = .ok document ∧
      resolveDocumentId generated document = .ok new ∧
      upsert.Misses filter test collection ∧
      collection.Inserts new (Document.set document idField (.customId new))
        ((upsert.write filter collection generated).run answer).1 := by
  have first :
      Upserting collection
        (fun id stored => ∃ document,
          seedDocumentFromFilter filter >>= apply = .ok document ∧
            resolveDocumentId generated document = .ok id ∧
            upsert.Misses filter test collection ∧
            stored = Document.set document idField (.customId id))
        (upsert.write filter collection generated) := by
    refine upserting_of_applies applies ?_
    intro otherTest otherApply document id isTest isApply misses seeds resolves
    obtain rfl := Except.ok.inj (isTest.symm.trans compilesFilter)
    obtain rfl := Except.ok.inj (isApply.symm.trans compiles)
    exact ⟨document, seeds, resolves, misses, rfl⟩
  rcases first answer with ⟨-, reportsNone⟩ |
      ⟨id, stored, ⟨document, seeds, resolves, misses, rfl⟩, isResult, inserts⟩
  · rw [reportsNone result returns] at reports
    cases reports
  · obtain rfl := Except.ok.inj (isResult.symm.trans returns)
    obtain rfl := Option.some.inj reports
    exact ⟨document, seeds, resolves, misses, inserts⟩

/-- An upsert that inserted a document goes on as its stored form says. -/
theorem goesOn_of_inserted
    {generated : CustomId}
    {answer : Except Thrown Unit}
    (sound : collection.Sound)
    (decodable : collection.Decodable)
    (equalities : AllEqualities filter)
    (compiles : compileFilter filter = .ok test)
    (applies : upsert.Applies update)
    (misses : upsert.Misses filter test collection)
    (inserts :
      collection.Inserts new document
        ((upsert.write filter collection generated).run answer).1) :
    upsert.GoesOn filter test new document
      ((upsert.write filter collection generated).run answer).1 := by
  have isRun := @run_write collection filter upsert generated answer
  have proposes :
      ∃ proposed,
        collection.propose (upsert.call filter generated) =
          some proposed := by
    cases upsert <;> exact ⟨_, rfl⟩
  obtain ⟨proposed, proposes⟩ := proposes
  have indexed :=
    Collection.isEmpty_of_propose proposes answer
  have afterSound :=
    Collection.ensures_perform sound (upsert.call filter generated) answer
  have afterDecodable :=
    Collection.decodable_perform sound decodable
      (upsert.call filter generated) answer
  rw [← isRun] at indexed afterSound afterDecodable
  generalize
    ((upsert.write filter collection generated).run answer).1 = after at *
  obtain ⟨encoded, encodes, hasId, fresh, added, -⟩ := inserts
  have stored : (new.toHexString, encoded) ∈ after.documents.entries := by
    rw [added]
    exact JsMap.mem_entries_set.mpr (.inl rfl)
  have finds : Survives filter document → upsert.Finds filter test new after :=
    finds_of_survives sound afterSound afterDecodable indexed equalities
      compiles misses fresh added encodes
  refine ⟨⟨encoded, encodes, JsMap.get?_eq_some.mpr stored⟩, ⟨?_, finds⟩,
    ?_, ?_⟩
  · intro found
    obtain ⟨located, isKey, isLocated, passes⟩ := found.located
    have isStored := JsMap.get?_eq_some.mpr isLocated.stored
    rw [isKey, JsMap.get?_eq_some.mpr stored] at isStored
    obtain rfl := Option.some.inj isStored
    exact ⟨_, _, encodes, isLocated.decodes,
      (passes_iff equalities compiles).mp passes⟩
  · intro survives again answer
    refine Collection.keys_of_upserting ?_ answer
    refine upserting_of_applies applies ?_
    intro otherTest _ _ _ isTest _ missed _ _
    obtain rfl := Except.ok.inj (isTest.symm.trans compiles)
    exact (finds survives).not_misses missed
  · intro survives again answer result returns
    exact reports_of_finds applies compiles (finds survives) returns

/-- What a clean upsert inserts can be read back. -/
theorem survives_of_clean
    {generated : CustomId}
    {encoded : Bytes}
    (distinct : (DocumentValue.document filter).DistinctKeys)
    (equalities : AllEqualities filter)
    (compiles : compileUpdate update = .ok apply)
    (apart : ApartFrom filter update)
    (cleanFilter : CleanFilter filter)
    (cleanUpdate : CleanUpdate update)
    (seeds : seedDocumentFromFilter filter >>= apply = .ok document)
    (resolves : resolveDocumentId generated document = .ok new)
    (encodes :
      encodeDocument (Document.set document idField (.customId new)) =
        .ok encoded) :
    Survives filter (Document.set document idField (.customId new)) := by
  obtain ⟨seed, isSeed, applied⟩ := Result.bind_eq_ok.mp seeds
  have clean :=
    clean_compileUpdate cleanUpdate compiles
      (clean_seedFields cleanFilter clean_empty isSeed) applied
  obtain ⟨storedDistinct, unmarked⟩ :=
    clean_set clean (show startsWithBom idField = false by decide +kernel)
      (clean_customId new)
  obtain ⟨decoded, decodes, -⟩ :=
    decoded_of_unmarked storedDistinct unmarked encodes
  exact ((satisfies_of_seed equalities compiles apart seeds).withId
    resolves).survives distinct (cleanFilter.readable equalities) encodes
      decodes

end Updates

/-- A filter that asks for a text. -/
def textFilter (text : JsString) : Document :=
  [(utf16 "a", .string text)]

/-- An update of another field. -/
def otherUpdate : Document :=
  [(utf16 "$set", .document [(utf16 "b", .null)])]

/-- The filter asks for an equality, and the update keeps to another path. -/
theorem textFilter_fits
    (text : JsString) :
    AllEqualities (textFilter text) ∧
      ApartFrom (textFilter text) otherUpdate := by
  have apart :
      overlaps (splitPath (utf16 "b")) (splitPath (utf16 "a")) = false := by
    decide +kernel
  have isField : startsWithDollar (utf16 "a") = false := by decide +kernel
  constructor
  · intro field member
    obtain rfl := List.mem_singleton.mp member
    exact ⟨isField, .string text, .plain (by nofun)⟩
  · intro name operands isOperator operand isOperand field member
    obtain rfl := List.mem_singleton.mp member
    obtain ⟨-, isOperands⟩ := Prod.mk.inj (List.mem_singleton.mp isOperator)
    obtain rfl := DocumentValue.document.inj isOperands
    obtain rfl := List.mem_singleton.mp isOperand
    exact apart

/-- A text with a byte order mark in front. -/
def markedText : JsString := 0xFEFF :: utf16 "x"

end Upsert

end SinterDb
