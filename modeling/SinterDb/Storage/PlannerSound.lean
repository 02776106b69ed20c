import SinterDb.Storage.IndexLookup

namespace SinterDb

open Unicode

/-!
# Plans leave no match out

Every document that passes a filter satisfies the constraints that the planner
collects from it, and every plan that uses constraints looks up the documents
that satisfy them.
-/

/-- What a constraint says about the value at its path. -/
def Constraint.Satisfied (found : Option DocumentValue) : Constraint → Prop
  | .equal value =>
      value.HasKey ∧
        ∃ actual, found = some actual ∧
          canonicalKey actual = canonicalKey value
  | .member values =>
      ∃ actual, found = some actual ∧
        ∃ element ∈ membershipValues actual, ∃ value ∈ values,
          value.HasKey ∧ canonicalKey element = canonicalKey value
  | .lower value inclusive =>
      ∃ actual, found = some actual ∧
        FieldIndex.IsAbove actual ⟨value, inclusive⟩
  | .upper value inclusive =>
      ∃ actual, found = some actual ∧
        FieldIndex.IsBelow actual ⟨value, inclusive⟩

/-- An encoded value has the key that was encoded. -/
theorem hasKey_of_encoded
    {value : DocumentValue}
    {encoded : Bytes}
    (encodes : liftProtocol (encodeDocumentValue value) = .ok encoded) :
    value.HasKey ∧ encoded = canonicalKey value := by
  cases result : encodeDocumentValue value with
  | error error =>
      rw [result] at encodes
      cases encodes
  | ok bytes =>
      rw [result] at encodes
      obtain rfl := Except.ok.inj encodes
      obtain ⟨-, -, rfl⟩ := encodeDocumentValue_ok.mp result
      exact ⟨result, rfl⟩

section Predicates

variable
  {found : Option DocumentValue}
  {predicate : FieldPredicate}

/-- An equality predicate holds only for equal values. -/
theorem satisfied_of_equality
    {expected : DocumentValue}
    (compiles : compileEqualityPredicate expected = .ok predicate)
    (holds : predicate found = true) :
    (Constraint.equal expected).Satisfied found := by
  obtain ⟨encoded, encodes, same⟩ := Result.bind_eq_ok.mp compiles
  obtain ⟨hasKey, rfl⟩ := hasKey_of_encoded encodes
  obtain rfl := Except.ok.inj same
  cases found with
  | none =>
      cases holds
  | some actual =>
      exact ⟨hasKey, actual, rfl, of_decide_eq_true holds⟩

/-- A comparison holds only for values on its side of the operand. -/
theorem accepts_of_comparison
    {operator : ComparisonOperator}
    {expected : DocumentValue}
    (compiles : compileComparisonPredicate operator expected = .ok predicate)
    (holds : predicate found = true) :
    ∃ actual, found = some actual ∧
      ∃ comparison, compareValues actual expected = some comparison ∧
        operator.accepts comparison = true := by
  unfold compileComparisonPredicate at compiles
  split_ifs at compiles
  obtain rfl := Except.ok.inj compiles
  cases found with
  | none =>
      cases holds
  | some actual =>
      cases compares : compareValues actual expected with
      | none =>
          simp [compares] at holds
      | some comparison =>
          exact ⟨actual, rfl, comparison, compares,
            by simpa [compares] using holds⟩

/-- A membership predicate holds only for members. -/
theorem satisfied_of_membership
    {path operator : JsString}
    {values : List DocumentValue}
    (compiles :
      compileMembershipPredicate path operator (.array values) false =
        .ok predicate)
    (holds : predicate found = true) :
    (Constraint.member values).Satisfied found := by
  obtain ⟨encoded, encodes, same⟩ := Result.bind_eq_ok.mp compiles
  obtain rfl := Except.ok.inj same
  cases found with
  | none =>
      cases holds
  | some actual =>
      simp only [Bool.false_eq_true, if_false, List.any_eq_true] at holds
      obtain ⟨element, isElement, key, isKey, equal⟩ := holds
      obtain ⟨value, member, keyOf⟩ :=
        Lists.exists_of_mem_right (Result.forall₂_of_mapM encodes) isKey
      obtain ⟨hasKey, rfl⟩ := hasKey_of_encoded keyOf
      exact ⟨actual, rfl, element, isElement, value, member, hasKey,
        of_decide_eq_true equal⟩

end Predicates

/-- The constraint of one operator holds when its predicate does. -/
theorem satisfied_of_operator
    {path : JsString}
    {operator : JsString × DocumentValue}
    {rest : List (JsString × DocumentValue)}
    {predicates : List FieldPredicate}
    (compiles : compileOperators path (operator :: rest) = .ok predicates) :
    ∃ predicate later,
      predicates = predicate :: later ∧
        compileOperators path rest = .ok later ∧
        ∀ found constraint, operatorConstraint operator = some constraint →
          predicate found = true → constraint.Satisfied found := by
  obtain ⟨name, operand⟩ := operator
  rw [compileOperators] at compiles
  obtain ⟨predicate, compiled, compiles⟩ := Result.bind_eq_ok.mp compiles
  obtain ⟨later, rest, same⟩ := Result.bind_eq_ok.mp compiles
  refine ⟨predicate, later, (Except.ok.inj same).symm, rest, ?_⟩
  intro found constraint isConstraint holds
  unfold compileOperator at compiled
  simp only [operatorConstraint] at isConstraint
  split_ifs at isConstraint with isEq isIn isGt isGte isLt isLte
  · obtain rfl := Option.some.inj isConstraint
    rw [if_pos isEq] at compiled
    exact satisfied_of_equality compiled holds
  · subst isIn
    split at isConstraint
    · obtain rfl := Option.some.inj isConstraint
      exact @satisfied_of_membership found predicate path (utf16 "$in") _
        compiled holds
    · cases isConstraint
  · subst isGt
    obtain rfl := Option.some.inj isConstraint
    exact accepts_of_comparison compiled holds
  · subst isGte
    obtain rfl := Option.some.inj isConstraint
    exact accepts_of_comparison compiled holds
  · subst isLt
    obtain rfl := Option.some.inj isConstraint
    exact accepts_of_comparison compiled holds
  · subst isLte
    obtain rfl := Option.some.inj isConstraint
    exact accepts_of_comparison compiled holds

/-- The constraints of an operator document hold when its predicates do. -/
theorem satisfied_of_operators
    {path : JsString}
    {operators : List (JsString × DocumentValue)}
    {predicates : List FieldPredicate}
    (compiles : compileOperators path operators = .ok predicates)
    {found : Option DocumentValue}
    (holds : ∀ predicate ∈ predicates, predicate found = true) :
    ∀ constraint ∈ operators.filterMap operatorConstraint,
      constraint.Satisfied found := by
  induction operators generalizing predicates with
  | nil =>
      simp
  | cons operator rest inductionHypothesis =>
      obtain ⟨predicate, later, rfl, compilesRest, satisfied⟩ :=
        satisfied_of_operator compiles
      rw [List.forall_mem_cons] at holds
      intro constraint member
      rw [List.mem_filterMap] at member
      obtain ⟨source, isSource, isConstraint⟩ := member
      rcases List.mem_cons.mp isSource with rfl | inRest
      · exact satisfied found constraint isConstraint holds.1
      · exact inductionHypothesis compilesRest holds.2 constraint
          (List.mem_filterMap.mpr ⟨source, inRest, isConstraint⟩)

/-- The constraints of a field hold when its predicates do. -/
theorem satisfied_of_field
    {path : JsString}
    {value : DocumentValue}
    {field : CompiledField}
    (compiles : compileField path value = .ok field)
    {document : Document}
    (holds :
      ∀ predicate ∈ field.predicates,
        predicate (resolveField document field.segments) = true) :
    ∀ constraint ∈ fieldConstraints value,
      constraint.Satisfied (resolveField document (splitPath path)) := by
  obtain ⟨segments, compilesPath, compiles⟩ := Result.bind_eq_ok.mp compiles
  have isSplit : segments = splitPath path := by
    unfold compileFieldPath at compilesPath
    split_ifs at compilesPath
    · cases compilesPath
    · obtain ⟨_, _, same⟩ := Result.bind_eq_ok.mp compilesPath
      exact (Except.ok.inj same).symm
  subst isSplit
  have literal :
      ∀ {predicate : FieldPredicate},
        compileEqualityPredicate value = .ok predicate →
        field = ⟨splitPath path, [predicate]⟩ →
        ∀ constraint ∈ [Constraint.equal value],
          constraint.Satisfied (resolveField document (splitPath path)) := by
    rintro predicate compiled rfl constraint member
    obtain rfl := List.mem_singleton.mp member
    exact satisfied_of_equality compiled
      (holds predicate (List.mem_singleton_self _))
  split at compiles
  · rename_i fields
    rw [fieldConstraints]
    split_ifs at compiles with operators
    · rw [if_pos operators]
      obtain ⟨predicates, compiled, same⟩ := Result.bind_eq_ok.mp compiles
      obtain rfl := Except.ok.inj same
      obtain ⟨_, _, compiled⟩ := Result.bind_eq_ok.mp compiled
      exact satisfied_of_operators compiled holds
    · rw [if_neg operators]
      obtain ⟨predicate, compiled, same⟩ := Result.bind_eq_ok.mp compiles
      exact literal compiled (Except.ok.inj same).symm
  · rename_i notDocument
    obtain ⟨predicate, compiled, same⟩ := Result.bind_eq_ok.mp compiles
    rw [fieldConstraints]
    · exact literal compiled (Except.ok.inj same).symm
    · exact notDocument

/-- The clauses of a logical operator are compiled each. -/
theorem compileEach_mem
    {items : List DocumentValue}
    {tests : List CompiledFilter}
    (compiles : compileEach items = .ok tests)
    {fields : Document}
    (member : .document fields ∈ items) :
    ∃ clauses, compileClauses fields = .ok clauses ∧
      clauses.test ∈ tests := by
  induction items generalizing tests with
  | nil =>
      cases member
  | cons item rest inductionHypothesis =>
      cases item with
      | document first =>
          rw [compileEach] at compiles
          obtain ⟨clauses, compiled, compiles⟩ :=
            Result.bind_eq_ok.mp compiles
          obtain ⟨later, compilesRest, same⟩ := Result.bind_eq_ok.mp compiles
          obtain rfl := Except.ok.inj same
          rcases List.mem_cons.mp member with isFirst | inRest
          · obtain rfl := DocumentValue.document.inj isFirst
            exact ⟨clauses, compiled, List.mem_cons_self⟩
          · obtain ⟨clauses, compiled, inLater⟩ :=
              inductionHypothesis compilesRest inRest
            exact ⟨clauses, compiled, List.mem_cons_of_mem _ inLater⟩
      | _ =>
          rw [compileEach] at compiles <;> try simp
          exact inductionHypothesis compiles (by simpa using member)

/-- A logical operator over an array compiles its clauses. -/
theorem compileLogicalOperator_array
    {name : JsString}
    {items : List DocumentValue}
    {test : CompiledFilter}
    (compiles : compileLogicalOperator name (.array items) = .ok test) :
    ∃ tests, compileEach items = .ok tests ∧
      test = combineClauses name tests := by
  unfold compileLogicalOperator at compiles
  simp only at compiles
  split_ifs at compiles
  obtain ⟨tests, compilesEach, same⟩ := Result.bind_eq_ok.mp compiles
  exact ⟨tests, compilesEach, (Except.ok.inj same).symm⟩

/-- The constraints of clauses come from one of them. -/
theorem mem_collectClauses
    {items : List DocumentValue}
    {entry : JsString × Constraint}
    (member : entry ∈ collectClauses items) :
    ∃ fields, .document fields ∈ items ∧ entry ∈ collect fields := by
  induction items with
  | nil =>
      rw [collectClauses] at member
      cases member
  | cons item rest inductionHypothesis =>
      cases item with
      | document first =>
          rw [collectClauses, List.mem_append] at member
          rcases member with inFirst | inRest
          · exact ⟨first, List.mem_cons_self, inFirst⟩
          · obtain ⟨fields, inItems, inFields⟩ := inductionHypothesis inRest
            exact ⟨fields, List.mem_cons_of_mem _ inItems, inFields⟩
      | _ =>
          rw [collectClauses] at member <;> try simp
          obtain ⟨fields, inItems, inFields⟩ := inductionHypothesis member
          exact ⟨fields, by simpa using inItems, inFields⟩

/-- A document satisfies what the planner collects from a filter. -/
def SatisfiesAll (document : Document) (filter : Document) : Prop :=
  ∀ entry ∈ collect filter,
    entry.2.Satisfied (resolveField document (splitPath entry.1))

/-- Passing the clauses of a filter means satisfying its constraints, when
that is so for the documents in its values. -/
theorem satisfiesAll_of_clauses
    {document : Document}
    {filter : Document}
    (nested :
      ∀ field ∈ filter, ∀ items, field.2 = .array items →
        ∀ fields, .document fields ∈ items →
        ∀ clauses, compileClauses fields = .ok clauses →
          clauses.test document = true → SatisfiesAll document fields)
    {clauses : CompiledClauses}
    (compiles : compileClauses filter = .ok clauses)
    (passes : clauses.test document = true) :
    SatisfiesAll document filter := by
  induction filter generalizing clauses with
  | nil =>
      simp [SatisfiesAll, collect]
  | cons field rest inductionHypothesis =>
      obtain ⟨key, value⟩ := field
      rw [List.forall_mem_cons] at nested
      obtain ⟨nestedFirst, nestedRest⟩ := nested
      rw [compileClauses] at compiles
      intro entry member
      rw [collect, List.mem_append] at member
      split_ifs at compiles with dollar
      · obtain ⟨test, compilesTest, compiles⟩ := Result.bind_eq_ok.mp compiles
        obtain ⟨later, compilesRest, same⟩ := Result.bind_eq_ok.mp compiles
        obtain rfl := Except.ok.inj same
        simp only [CompiledClauses.test, List.all_cons,
          Bool.and_eq_true] at passes
        rcases member with inFirst | inRest
        · by_cases isAnd : key = utf16 "$and"
          · subst isAnd
            rw [if_pos rfl] at inFirst
            cases value with
            | array items =>
                obtain ⟨fields, inItems, inFields⟩ :=
                  mem_collectClauses inFirst
                obtain ⟨tests, compilesEach, rfl⟩ :=
                  compileLogicalOperator_array compilesTest
                obtain ⟨inner, compilesInner, inTests⟩ :=
                  compileEach_mem compilesEach inItems
                have allPass := passes.2.1
                simp only [combineClauses, if_true,
                  List.all_eq_true] at allPass
                exact nestedFirst items rfl fields inItems inner compilesInner
                  (allPass _ inTests) entry inFields
            | _ =>
                cases inFirst
          · rw [if_neg isAnd, if_pos dollar] at inFirst
            cases inFirst
        · exact inductionHypothesis nestedRest compilesRest
            (by simp [CompiledClauses.test, passes.1, passes.2.2]) entry inRest
      · obtain ⟨compiled, compilesField, compiles⟩ :=
          Result.bind_eq_ok.mp compiles
        obtain ⟨later, compilesRest, same⟩ := Result.bind_eq_ok.mp compiles
        obtain rfl := Except.ok.inj same
        simp only [CompiledClauses.test, matchesCompiledFilter, List.all_cons,
          Bool.and_eq_true] at passes
        rcases member with inFirst | inRest
        · rw [if_neg (fun isAnd => dollar (by rw [isAnd]; rfl)),
            if_neg dollar, List.mem_map] at inFirst
          obtain ⟨constraint, isConstraint, rfl⟩ := inFirst
          exact satisfied_of_field compilesField
            (by simpa using passes.1.1) constraint isConstraint
        · exact inductionHypothesis nestedRest compilesRest
            (by simp [CompiledClauses.test, matchesCompiledFilter, passes.1.2,
              passes.2]) entry inRest

/-- Passing a filter means satisfying its constraints, at every depth. -/
theorem satisfiesAll_of_value
    (document : Document)
    (value : DocumentValue) :
    (∀ fields, value = .document fields →
        ∀ clauses, compileClauses fields = .ok clauses →
          clauses.test document = true → SatisfiesAll document fields) ∧
      ∀ items, value = .array items → ∀ fields, .document fields ∈ items →
        ∀ clauses, compileClauses fields = .ok clauses →
          clauses.test document = true → SatisfiesAll document fields := by
  induction value using DocumentValue.induction with
  | array items inductionHypothesis =>
      refine ⟨by simp, ?_⟩
      rintro _ ⟨⟩ fields member
      exact (inductionHypothesis _ member).1 fields rfl
  | document fields inductionHypothesis =>
      refine ⟨?_, by simp⟩
      rintro _ ⟨⟩ clauses compiles passes
      refine satisfiesAll_of_clauses ?_ compiles passes
      intro field member
      exact (inductionHypothesis field member).2
  | _ =>
      exact ⟨by simp, by simp⟩

/-- A document that passes a compiled filter satisfies its constraints. -/
theorem satisfiesAll_of_compileFilter
    {filter document : Document}
    {test : CompiledFilter}
    (compiles : compileFilter filter = .ok test)
    (passes : test document = true) :
    SatisfiesAll document filter := by
  unfold compileFilter at compiles
  simp only at compiles
  split at compiles
  · rename_i clauses compiled
    obtain ⟨_, _, compiled⟩ := Result.bind_eq_ok.mp compiled
    obtain rfl := Except.ok.inj compiles
    exact (satisfiesAll_of_value document (.document filter)).1 filter rfl
      clauses compiled passes
  · cases compiles
  · cases compiles

section Plans

variable
  {constraints : List Constraint}
  {keys : List JsString}

/-- A constraint on the id leaves the key of a document that satisfies it. -/
theorem mem_idKeys
    {constraint : Constraint}
    {id : CustomId}
    (satisfied : constraint.Satisfied (some (.customId id)))
    (leaves : idKeys constraint = some keys) :
    id.toHexString ∈ keys := by
  have ownKey : (DocumentValue.customId id).HasKey := hasKey_customId id
  have isId :
      ∀ value : DocumentValue, value.HasKey →
        canonicalKey (.customId id) = canonicalKey value →
        idKey? value = some id.toHexString := by
    intro value hasKey same
    rw [← eq_of_canonicalKey rfl ownKey hasKey same]
    rfl
  cases constraint with
  | equal value =>
      obtain ⟨hasKey, actual, isActual, same⟩ := satisfied
      obtain rfl := Option.some.inj isActual
      obtain rfl := Option.some.inj leaves
      simp [isId value hasKey same]
  | member values =>
      obtain ⟨actual, isActual, element, isElement, value, inValues, hasKey,
        same⟩ := satisfied
      obtain rfl := Option.some.inj isActual
      obtain rfl := List.mem_singleton.mp isElement
      obtain rfl := Option.some.inj leaves
      simpa using ⟨value, inValues, isId value hasKey same⟩
  | lower value inclusive =>
      cases leaves
  | upper value inclusive =>
      cases leaves

/-- The best keys come from one of the constraints. -/
theorem foldl_betterId
    {best : Option (List JsString)}
    (chosen : constraints.foldl betterId best = some keys) :
    best = some keys ∨ ∃ constraint ∈ constraints,
      idKeys constraint = some keys := by
  induction constraints generalizing best with
  | nil =>
      exact .inl chosen
  | cons constraint rest inductionHypothesis =>
      rcases inductionHypothesis chosen with step | ⟨other, member, leaves⟩
      · unfold betterId at step
        split at step
        · exact .inl step
        · exact .inr ⟨constraint, List.mem_cons_self, by simp_all⟩
        · split_ifs at step
          · exact .inr ⟨constraint, List.mem_cons_self, by simp_all⟩
          · exact .inl step
      · exact .inr ⟨other, List.mem_cons_of_mem _ member, leaves⟩

/-- A plan looks a document up. -/
def QueryPlan.Reaches (plan : QueryPlan) (docKey : JsString) : Prop :=
  ∀ keys, candidateKeys plan = some keys → docKey ∈ keys

/-- The id lookup reaches a document that satisfies the constraints. -/
theorem reaches_planId
    {id : CustomId}
    {plan : QueryPlan}
    (satisfied :
      ∀ constraint ∈ constraints, constraint.Satisfied (some (.customId id)))
    (plans : planId constraints = some plan) :
    plan.Reaches id.toHexString := by
  obtain ⟨keys, chosen, rfl⟩ := Option.map_eq_some_iff.mp plans
  rcases foldl_betterId chosen with impossible | ⟨constraint, member, leaves⟩
  · cases impossible
  · rintro _ ⟨⟩
    simpa using mem_idKeys (satisfied constraint member) leaves

/-- Every value of `$in` has one with the same key among the distinct ones. -/
theorem exists_distinctValue
    {values : List DocumentValue}
    {value : DocumentValue}
    (member : value ∈ values) :
    ∃ other ∈ distinctValues values,
      canonicalKey other = canonicalKey value := by
  have listed :
      canonicalKey value ∈
        (JsMap.ofEntries
          (values.map fun value => (canonicalKey value, value))).keys :=
    JsMap.mem_keys_foldl_set.mpr (.inr (by
      simpa using ⟨value, member, rfl⟩))
  obtain ⟨⟨key, other⟩, isEntry, sameKey⟩ := List.mem_map.mp listed
  obtain rfl : key = canonicalKey value := sameKey
  rcases JsMap.mem_entries_foldl_set isEntry with
    fromValues | ⟨impossible, -⟩
  · obtain ⟨source, -, same⟩ := List.mem_map.mp fromValues
    obtain ⟨keys, rfl⟩ := Prod.mk.inj same
    exact ⟨source, List.mem_map.mpr ⟨_, isEntry, rfl⟩, keys⟩
  · cases impossible

variable
  {index : FieldIndex}
  {docKey : JsString}
  {found : Option DocumentValue}
  {plan : QueryPlan}

/-- An equality plan reaches a document that satisfies its constraint. -/
theorem reaches_planEqual
    {constraint : Constraint}
    (consistent : index.Consistent)
    (covered :
      ∀ value, found = some value → index.Holds (canonicalKey value) docKey)
    (satisfied : constraint.Satisfied found)
    (plans : planEqual index constraint = some plan) :
    plan.Reaches docKey := by
  cases constraint with
  | equal value =>
      obtain ⟨-, actual, isActual, same⟩ := satisfied
      obtain rfl := Option.some.inj plans
      rintro _ ⟨⟩
      rw [mem_foldl_addKeys]
      refine .inr ⟨value, List.mem_singleton_self _, ?_⟩
      rw [FieldIndex.mem_lookupEqual, ← same]
      exact covered actual isActual
  | member values =>
      obtain ⟨actual, isActual, element, isElement, value, inValues, -,
        same⟩ := satisfied
      have held := covered actual isActual
      simp only [planEqual] at plans
      split_ifs at plans with arrays
      obtain rfl := Option.some.inj plans
      have notArray :=
        FieldIndex.not_isArray_of_holds consistent (by simpa using arrays) held
      obtain rfl : element = actual := by
        cases actual with
        | array _ =>
            cases notArray
        | _ =>
            exact List.mem_singleton.mp isElement
      obtain ⟨other, isOther, otherKey⟩ := exists_distinctValue inValues
      rintro _ ⟨⟩
      rw [mem_foldl_addKeys]
      refine .inr ⟨other, isOther, ?_⟩
      rw [FieldIndex.mem_lookupEqual, otherKey, ← same]
      exact held
  | lower value inclusive =>
      cases plans
  | upper value inclusive =>
      cases plans

/-- The bounds found so far admit the value. -/
structure RangeBounds.Admits
    (bounds : RangeBounds)
    (value : DocumentValue) : Prop where
  valueClass :
    ∀ own, bounds.valueClass = some own → valueClassOf value = some own
  lower :
    ∀ bound, bounds.lower = some bound → FieldIndex.IsAbove value bound
  upper :
    ∀ bound, bounds.upper = some bound → FieldIndex.IsBelow value bound

/-- The tighter bound is one of the two. -/
theorem tighter_eq
    (current : Option IndexBound)
    (next : IndexBound)
    (wanted : Ordering) :
    tighter current next wanted = next ∨
      current = some (tighter current next wanted) := by
  unfold tighter
  cases current with
  | none =>
      exact .inl rfl
  | some current =>
      simp only
      split_ifs <;> simp

/-- One constraint narrows the bounds to ones that admit the value. -/
theorem admits_rangeStep
    {bounds narrowed : RangeBounds}
    {constraint : Constraint}
    {value : DocumentValue}
    (admits : bounds.Admits value)
    (satisfied : constraint.Satisfied (some value))
    (narrows : rangeStep bounds constraint = some narrowed) :
    narrowed.Admits value := by
  cases constraint with
  | equal _ =>
      obtain rfl := Option.some.inj narrows
      exact admits
  | member _ =>
      obtain rfl := Option.some.inj narrows
      exact admits
  | lower operand inclusive =>
      obtain ⟨actual, isActual, above⟩ := satisfied
      obtain rfl := Option.some.inj isActual
      simp only [rangeStep, RangeBounds.narrow] at narrows
      split at narrows
      · cases narrows
      · rename_i own operandClass
        split_ifs at narrows
        obtain rfl := Option.some.inj narrows
        obtain ⟨_, compares, _⟩ := id above
        obtain ⟨shared, valueShared, operandShared⟩ :=
          valueClassOf_of_compareValues compares
        refine ⟨?_, ?_, admits.upper⟩
        · rintro _ ⟨⟩
          rw [valueShared, ← operandShared, operandClass]
        · rintro _ ⟨⟩
          rcases tighter_eq bounds.lower ⟨operand, inclusive⟩ .gt with
            isNext | isCurrent
          · rw [isNext]
            exact above
          · exact admits.lower _ isCurrent
  | upper operand inclusive =>
      obtain ⟨actual, isActual, below⟩ := satisfied
      obtain rfl := Option.some.inj isActual
      simp only [rangeStep, RangeBounds.narrow] at narrows
      split at narrows
      · cases narrows
      · rename_i own operandClass
        split_ifs at narrows
        obtain rfl := Option.some.inj narrows
        obtain ⟨_, compares, _⟩ := id below
        obtain ⟨shared, valueShared, operandShared⟩ :=
          valueClassOf_of_compareValues compares
        refine ⟨?_, admits.lower, ?_⟩
        · rintro _ ⟨⟩
          rw [valueShared, ← operandShared, operandClass]
        · rintro _ ⟨⟩
          rcases tighter_eq bounds.upper ⟨operand, inclusive⟩ .lt with
            isNext | isCurrent
          · rw [isNext]
            exact below
          · exact admits.upper _ isCurrent

/-- All constraints together narrow the bounds to ones that admit it. -/
theorem admits_rangeSteps
    {bounds narrowed : RangeBounds}
    {value : DocumentValue}
    (admits : bounds.Admits value)
    (satisfied :
      ∀ constraint ∈ constraints, constraint.Satisfied (some value))
    (narrows : constraints.foldlM rangeStep bounds = some narrowed) :
    narrowed.Admits value := by
  induction constraints generalizing bounds with
  | nil =>
      obtain rfl := Option.some.inj narrows
      exact admits
  | cons constraint rest inductionHypothesis =>
      rw [List.forall_mem_cons] at satisfied
      rw [List.foldlM_cons] at narrows
      obtain ⟨step, isStep, narrows⟩ := Option.bind_eq_some_iff.mp narrows
      exact inductionHypothesis
        (admits_rangeStep admits satisfied.1 isStep) satisfied.2 narrows

/-- Without a value at the path no constraint is satisfied. -/
theorem not_satisfied_none
    (constraint : Constraint) :
    ¬ constraint.Satisfied none := by
  cases constraint <;> simp [Constraint.Satisfied]

/-- A range plan reaches a document that satisfies its constraints. -/
theorem reaches_planRange
    (wellFormed : index.WellFormed)
    (covered :
      ∀ value, found = some value → index.Holds (canonicalKey value) docKey)
    (keyed : ∀ value, found = some value → value.HasKey)
    (satisfied : ∀ constraint ∈ constraints, constraint.Satisfied found)
    (plans : planRange index constraints = some plan) :
    plan.Reaches docKey := by
  unfold planRange at plans
  split at plans
  · cases plans
  · rename_i bounds narrows
    obtain ⟨valueClass, hasClass, rfl⟩ := Option.map_eq_some_iff.mp plans
    cases found with
    | none =>
        -- A class is only found when there is a constraint.
        cases constraints with
        | nil =>
            obtain rfl := Option.some.inj narrows
            cases hasClass
        | cons constraint rest =>
            exact absurd (satisfied constraint List.mem_cons_self)
              (not_satisfied_none constraint)
    | some value =>
        have admits :=
          admits_rangeSteps ⟨by simp, by simp, by simp⟩ satisfied narrows
        rintro _ ⟨⟩
        exact FieldIndex.mem_lookupRange wellFormed (keyed value rfl)
          (admits.valueClass valueClass hasClass) (covered value rfl)
          admits.lower admits.upper

/-- The best plan is the scan or one of the candidates. -/
theorem foldl_betterPlan
    (candidates : List QueryPlan)
    (best : QueryPlan) :
    candidates.foldl betterPlan best = best ∨
      candidates.foldl betterPlan best ∈ candidates := by
  induction candidates generalizing best with
  | nil =>
      exact .inl rfl
  | cons candidate rest inductionHypothesis =>
      rw [List.foldl_cons]
      rcases inductionHypothesis (betterPlan best candidate) with same | member
      · rw [same]
        unfold betterPlan
        split_ifs
        · exact .inr List.mem_cons_self
        · exact .inl rfl
      · exact .inr (List.mem_cons_of_mem _ member)

end Plans

/-- The constraints on a field hold for its value. -/
theorem satisfied_constraintsOf
    {filter document : Document}
    (satisfies : SatisfiesAll document filter)
    (field : JsString) :
    ∀ constraint ∈ constraintsOf (collect filter) field,
      constraint.Satisfied (resolveField document (splitPath field)) := by
  intro constraint member
  obtain ⟨entry, isEntry, rfl⟩ := List.mem_map.mp member
  obtain ⟨inCollected, sameField⟩ := List.mem_filter.mp isEntry
  obtain rfl := beq_iff_eq.mp sameField
  exact satisfies entry inCollected

/-- Whatever the planner picks, it reaches a document that passes the filter
and that the indexes cover. -/
theorem reaches_planQuery
    {filter document : Document}
    {test : CompiledFilter}
    {indexes : List FieldIndex}
    {total : Nat}
    {id : CustomId}
    (compiles : compileFilter filter = .ok test)
    (passes : test document = true)
    (hasId : Document.get? document (utf16 "_id") = some (.customId id))
    (covered :
      ∀ index ∈ indexes, index.WellFormed ∧
        index.Covers id.toHexString document)
    (keyed :
      ∀ path value, resolveField document path = some value → value.HasKey) :
    (planQuery filter indexes total).Reaches id.toHexString := by
  have satisfies := satisfiesAll_of_compileFilter compiles passes
  unfold planQuery
  simp only
  split_ifs
  · rintro _ ⟨⟩
  · split
    · rename_i plan plans
      have onId := satisfied_constraintsOf satisfies (utf16 "_id")
      have idValue :
          resolveField document (splitPath (utf16 "_id")) =
            some (.customId id) := by
        rw [← hasId]
        rfl
      rw [idValue] at onId
      exact reaches_planId onId plans
    · rcases foldl_betterPlan
        (indexes.flatMap fun index =>
          planIndex index (constraintsOf (collect filter) index.spec.field))
        (.collScan total) with isScan | isCandidate
      · rw [isScan]
        rintro _ ⟨⟩
      · obtain ⟨index, isIndex, isPlan⟩ := List.mem_flatMap.mp isCandidate
        obtain ⟨wellFormed, covers⟩ := covered index isIndex
        have onField := satisfied_constraintsOf satisfies index.spec.field
        rcases List.mem_append.mp isPlan with isEqual | isRange
        · obtain ⟨constraint, isConstraint, plans⟩ :=
            List.mem_filterMap.mp isEqual
          exact reaches_planEqual wellFormed.toConsistent covers
            (onField constraint isConstraint) plans
        · exact reaches_planRange wellFormed covers
            (fun value => keyed _ value) onField
            (Option.mem_toList.mp isRange)

end SinterDb
