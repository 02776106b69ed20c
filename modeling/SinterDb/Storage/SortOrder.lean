import SinterDb.Lib.StableSort
import SinterDb.Storage.FindScan
import SinterDb.Storage.ValueOrder
import Mathlib.Algebra.Order.Ring.Rat
import Mathlib.Order.WithBot
import Mathlib.Tactic.Positivity

namespace SinterDb

/-!
# The order of a sort

`compareDocumentValues` is a total preorder, so that `compileSort` has one
stable result, and it agrees with the comparison of range filters.
-/

/-- The place of a number, a bigint or a date; NaN comes first. -/
def numberPlace (value : DocumentValue) : WithBot (Int ×ₗ Int) :=
  match numericPosition value with
  | none => ⊥
  | some position => (toLex position : Int ×ₗ Int)

/-- What values of the other ranks are compared by. -/
def sortUnits : Option DocumentValue → List Nat
  | some (.string text) => text.map UInt16.toNat
  | some (.boolean value) => [value.toNat]
  | some (.binary data) => data.map UInt8.toNat
  | some (.customId id) => id.bytes.map UInt8.toNat
  | _ => []

/-- The number of a value that is compared by its number. -/
def sortNumber : Option DocumentValue → WithBot (Int ×ₗ Int)
  | some value => numberPlace value
  | none => ⊥

/-- The place of a value in the order of a sort. -/
def sortPlace
    (value : Option DocumentValue) :
    Nat ×ₗ (WithBot (Int ×ₗ Int) ×ₗ List Nat) :=
  toLex ((sortRank value).code, toLex (sortNumber value, sortUnits value))

/-- Numbers are compared by their places. -/
theorem compareNumbers_eq (left right : DocumentValue) :
    compareNumbers left right = cmp (numberPlace left) (numberPlace right) := by
  unfold compareNumbers numberPlace
  cases numericPosition left with
  | none =>
      cases numericPosition right with
      | none =>
          exact (cmp_self_eq_eq _).symm
      | some position =>
          exact ((cmp_eq_lt_iff _ _).mpr (WithBot.bot_lt_coe _)).symm
  | some position =>
      cases numericPosition right with
      | none =>
          exact ((cmp_eq_gt_iff _ _).mpr (WithBot.bot_lt_coe _)).symm
      | some other =>
          exact (WithBot.coe_strictMono.cmp_map_eq _ _).symm

/-- Ranks are different just when their numbers are. -/
theorem rank_code_injective
    {left right : Rank}
    (same : left.code = right.code) :
    left = right := by
  cases left <;> cases right <;> first | rfl | cases same

/-- Values of one rank without numbers are compared by their units. -/
theorem cmp_units
    {left right : Option DocumentValue}
    (leftNumber : sortNumber left = ⊥)
    (rightNumber : sortNumber right = ⊥)
    (rank : sortRank left = sortRank right) :
    cmp (sortPlace left) (sortPlace right) =
      cmp (sortUnits left) (sortUnits right) := by
  unfold sortPlace
  rw [rank, cmp_toLex_of_eq, leftNumber, rightNumber, cmp_toLex_of_eq]
  congr!

/-- Values of one rank without units are compared by their numbers. -/
theorem cmp_numbers
    {left right : DocumentValue}
    (leftUnits : sortUnits (some left) = [])
    (rightUnits : sortUnits (some right) = [])
    (rank : rankOf left = rankOf right) :
    cmp (sortPlace (some left)) (sortPlace (some right)) =
      compareNumbers left right := by
  unfold sortPlace
  rw [sortRank, sortRank, rank, cmp_toLex_of_eq, leftUnits, rightUnits,
    compareNumbers_eq]
  by_cases same : numberPlace left = numberPlace right
  · rw [sortNumber, sortNumber, same, cmp_self_eq_eq, cmp_self_eq_eq]
  · exact cmp_toLex_of_ne same _ _

/-- Values of one rank are compared by their places. -/
theorem compareSortValues_of_rank
    {left right : DocumentValue}
    (rank : rankOf left = rankOf right) :
    compareSortValues (some left) (some right) =
      cmp (sortPlace (some left)) (sortPlace (some right)) := by
  have sameRank : ¬ sortRank (some left) ≠ sortRank (some right) :=
    not_not.mpr rank
  unfold compareSortValues
  rw [if_neg sameRank]
  clear sameRank
  -- The right value is of the rank of the left one; other pairs drop out.
  cases left with
  | null =>
      cases right <;> cases rank
      exact (cmp_self_eq_eq _).symm
  | boolean left =>
      cases right <;> cases rank
      rename_i right
      refine Eq.trans ?_ (Eq.symm (cmp_units ?_ ?_ ?_)) <;> try rfl
      cases left <;> cases right <;> rfl
  | number left =>
      cases right <;> cases rank
      all_goals refine Eq.symm (cmp_numbers ?_ ?_ ?_) <;> rfl
  | bigint left =>
      cases right <;> cases rank
      all_goals refine Eq.symm (cmp_numbers ?_ ?_ ?_) <;> rfl
  | string left =>
      cases right <;> cases rank
      refine Eq.symm (cmp_units ?_ ?_ ?_) <;> rfl
  | date left =>
      cases right <;> cases rank
      refine Eq.symm (cmp_numbers ?_ ?_ ?_) <;> rfl
  | binary left =>
      cases right <;> cases rank
      refine Eq.symm (cmp_units ?_ ?_ ?_) <;> rfl
  | customId left =>
      cases right <;> cases rank
      refine Eq.symm (cmp_units ?_ ?_ ?_) <;> rfl
  | array left =>
      cases right <;> cases rank
      exact (cmp_self_eq_eq _).symm
  | document left =>
      cases right <;> cases rank
      exact (cmp_self_eq_eq _).symm

/-- Values are compared by their places. -/
theorem compareSortValues_eq (left right : Option DocumentValue) :
    compareSortValues left right =
      cmp (sortPlace left) (sortPlace right) := by
  by_cases rank : sortRank left = sortRank right
  · cases left with
    | none =>
        cases right with
        | none =>
            exact (cmp_self_eq_eq _).symm
        | some right =>
            cases right <;> cases rank
    | some left =>
        cases right with
        | none =>
            cases left <;> cases rank
        | some right =>
            exact compareSortValues_of_rank rank
  · have different : (sortRank left).code ≠ (sortRank right).code :=
      fun same => rank (rank_code_injective same)
    unfold compareSortValues sortPlace
    rw [if_pos rank, cmp_toLex_of_ne different]
    split_ifs with less
    · exact ((cmp_eq_lt_iff _ _).mpr less).symm
    · exact ((cmp_eq_gt_iff _ _).mpr (by omega)).symm

/-- The order of a sort, missing values included, is a total preorder. -/
theorem totalPreorder_compareSortValues :
    TotalPreorder compareSortValues :=
  totalPreorder_of_place compareSortValues_eq

/--
The exact value of a number or a bigint between the infinities, and NaN below
all of them.
-/
def numberLine : DocumentValue → WithBot (WithBot (WithTop ℚ))
  | .number (.infinity true) => ((⊥ : WithBot (WithTop ℚ)) : WithBot _)
  | .number (.infinity false) =>
      (((⊤ : WithTop ℚ) : WithBot (WithTop ℚ)) : WithBot _)
  | .number (.finite negative exponent fraction) =>
      (((((JsNumber.scaled negative exponent fraction : ℚ) / 2 ^ 1074 : ℚ) :
        WithTop ℚ) : WithBot (WithTop ℚ)) : WithBot _)
  | .bigint value =>
      ((((value : ℚ) : WithTop ℚ) : WithBot (WithTop ℚ)) : WithBot _)
  | _ => ⊥

/-- A place on the number line, in units of `2 ^ -1074`. -/
def lineOf : Option (Int × Int) → WithBot (WithBot (WithTop ℚ))
  | none => ⊥
  | some (.negSucc _, _) => ((⊥ : WithBot (WithTop ℚ)) : WithBot _)
  | some (0, scaled) =>
      (((((scaled : ℚ) / 2 ^ 1074 : ℚ) : WithTop ℚ) :
        WithBot (WithTop ℚ)) : WithBot _)
  | some (_, _) => (((⊤ : WithTop ℚ) : WithBot (WithTop ℚ)) : WithBot _)

/-- A number and a bigint stand at their places. -/
theorem numberLine_eq
    {value : DocumentValue}
    (rank : rankOf value = .number) :
    numberLine value = lineOf (numericPosition value) := by
  cases value with
  | number value =>
      cases value with
      | nan =>
          rfl
      | infinity negative =>
          cases negative <;> rfl
      | finite negative exponent fraction =>
          rfl
  | bigint value =>
      have exact :
          (value : ℚ) = ((value * JsNumber.one : ℤ) : ℚ) / 2 ^ 1074 := by
        rw [JsNumber.one, Int.cast_mul, Int.cast_natCast, Nat.cast_pow,
          Nat.cast_ofNat, mul_div_assoc, div_self (by positivity), mul_one]
      rw [numberLine, exact]
      rfl
  | _ =>
      cases rank

/-- The places that numbers can have. -/
theorem numericPosition_cases
    {value : DocumentValue}
    (rank : rankOf value = .number) :
    numericPosition value = none ∨
      numericPosition value = some (-1, 0) ∨
      (∃ scaled, numericPosition value = some (0, scaled)) ∨
      numericPosition value = some (1, 0) := by
  cases value with
  | number value =>
      cases value with
      | nan =>
          exact .inl rfl
      | infinity negative =>
          cases negative with
          | false =>
              exact .inr (.inr (.inr rfl))
          | true =>
              exact .inr (.inl rfl)
      | finite negative exponent fraction =>
          exact .inr (.inr (.inl ⟨_, rfl⟩))
  | bigint value =>
      exact .inr (.inr (.inl ⟨_, rfl⟩))
  | _ =>
      cases rank

/-- Finite places compare like the numbers at them. -/
theorem cmp_lineOf (left right : Int) :
    cmp (lineOf (some (0, left))) (lineOf (some (0, right))) =
      cmp (toLex ((0 : Int), left)) (toLex ((0 : Int), right)) := by
  rw [cmp_toLex_of_eq]
  have scales : StrictMono fun scaled : Int => (scaled : ℚ) / 2 ^ 1074 := by
    intro less more isLess
    have cast : (less : ℚ) < more := by exact_mod_cast isLess
    exact div_lt_div_of_pos_right cast (by positivity)
  rw [lineOf, lineOf, WithBot.coe_strictMono.cmp_map_eq,
    WithBot.coe_strictMono.cmp_map_eq, WithTop.coe_strictMono.cmp_map_eq]
  exact scales.cmp_map_eq left right

/-- Numbers and bigints are compared exactly. -/
theorem compareNumbers_exact
    {left right : DocumentValue}
    (leftRank : rankOf left = .number)
    (rightRank : rankOf right = .number) :
    compareNumbers left right = cmp (numberLine left) (numberLine right) := by
  rw [numberLine_eq leftRank, numberLine_eq rightRank]
  unfold compareNumbers
  rcases numericPosition_cases leftRank with
      isLeft | isLeft | ⟨first, isLeft⟩ | isLeft <;>
    rcases numericPosition_cases rightRank with
      isRight | isRight | ⟨second, isRight⟩ | isRight <;>
    rw [isLeft, isRight]
  all_goals first | rfl | exact (cmp_lineOf _ _).symm

/-- Positions with a common factor compare like the numbers in them. -/
theorem cmp_scaled (left right : Int) :
    cmp (toLex ((0 : Int), left * JsNumber.one))
        (toLex ((0 : Int), right * JsNumber.one)) =
      cmp left right := by
  rw [cmp_toLex_of_eq]
  have scales : StrictMono fun value : Int => value * JsNumber.one := by
    intro less more isLess
    exact Int.mul_lt_mul_of_pos_right isLess
      (Int.natCast_pos.mpr JsNumber.one_pos)
  exact scales.cmp_map_eq left right

/-- Within a class of range filters both comparisons agree. -/
theorem compareValues_eq
    {left right : DocumentValue}
    {valueClass : ValueClass}
    (leftClass : valueClassOf left = some valueClass)
    (rightClass : valueClassOf right = some valueClass) :
    compareValues left right = some (compareDocumentValues left right) := by
  have leftShape := shape_of_valueClassOf leftClass
  have rightShape := shape_of_valueClassOf rightClass
  clear leftClass rightClass
  cases valueClass with
  | string =>
      obtain ⟨left, rfl⟩ := leftShape
      obtain ⟨right, rfl⟩ := rightShape
      rfl
  | number =>
      obtain ⟨_, _, _, rfl⟩ := leftShape
      obtain ⟨_, _, _, rfl⟩ := rightShape
      exact congrArg some (cmp_toLex_of_eq (0 : Int) _ _).symm
  | bigint =>
      obtain ⟨left, rfl⟩ := leftShape
      obtain ⟨right, rfl⟩ := rightShape
      exact congrArg some (cmp_scaled left right).symm
  | date =>
      obtain ⟨left, rfl⟩ := leftShape
      obtain ⟨right, rfl⟩ := rightShape
      exact congrArg some
        (cmp_scaled left.milliseconds right.milliseconds).symm
  | binary =>
      obtain ⟨left, rfl⟩ := leftShape
      obtain ⟨right, rfl⟩ := rightShape
      rfl
  | id =>
      obtain ⟨left, rfl⟩ := leftShape
      obtain ⟨right, rfl⟩ := rightShape
      rfl

/-- The comparison of two documents by one key, in its direction. -/
def compareByKey (key : SortKey) (left right : Document) : Ordering :=
  let comparison :=
    compareSortValues (resolveField left key.segments)
      (resolveField right key.segments)
  if key.descending then comparison.swap else comparison

/-- One document comes first by the first key in which two of them differ. -/
def KeysPrecede (keys : List SortKey) (left right : Document) : Prop :=
  ∃ before key behind,
    keys = before ++ key :: behind ∧
      (∀ other ∈ before, compareByKey other left right = .eq) ∧
      compareByKey key left right = .lt

/-- A key other than the first one decides in a tie. -/
theorem compareByKeys_cons
    (key : SortKey)
    (keys : List SortKey)
    (left right : Document) :
    compareByKeys (key :: keys) left right =
      (compareByKey key left right).then (compareByKeys keys left right) := by
  rw [compareByKeys, compareByKey]
  cases key.descending <;>
    cases compareSortValues (resolveField left key.segments)
      (resolveField right key.segments) <;>
    rfl

/-- Two documents tie when they tie in every key. -/
theorem compareByKeys_eq_eq
    {keys : List SortKey}
    {left right : Document} :
    compareByKeys keys left right = .eq ↔
      ∀ key ∈ keys, compareByKey key left right = .eq := by
  induction keys with
  | nil =>
      exact ⟨fun _ => nofun, fun _ => rfl⟩
  | cons key keys inductionHypothesis =>
      rw [compareByKeys_cons, Ordering.then_eq_eq, inductionHypothesis,
        List.forall_mem_cons]

/-- Two documents are in order by the first key in which they differ. -/
theorem compareByKeys_eq_lt
    {keys : List SortKey}
    {left right : Document} :
    compareByKeys keys left right = .lt ↔ KeysPrecede keys left right := by
  induction keys with
  | nil =>
      constructor
      · nofun
      · rintro ⟨before, key, behind, same, -⟩
        cases before <;> cases same
  | cons key keys inductionHypothesis =>
      rw [compareByKeys_cons, Ordering.then_eq_lt, inductionHypothesis]
      constructor
      · rintro (less | ⟨tie, before, other, behind, rfl, ties, less⟩)
        · exact ⟨[], key, keys, rfl, nofun, less⟩
        · exact ⟨key :: before, other, behind, rfl,
            List.forall_mem_cons.mpr ⟨tie, ties⟩, less⟩
      · rintro ⟨before, other, behind, same, ties, less⟩
        cases before with
        | nil =>
            obtain ⟨rfl, rfl⟩ := List.cons.inj same
            exact .inl less
        | cons first before =>
            obtain ⟨rfl, rfl⟩ := List.cons.inj same
            obtain ⟨tie, ties⟩ := List.forall_mem_cons.mp ties
            exact .inr ⟨tie, before, other, behind, rfl, ties, less⟩

/-- The order of one key is a total preorder. -/
theorem totalPreorder_compareByKey (key : SortKey) :
    TotalPreorder (compareByKey key) := by
  have values :=
    totalPreorder_compareSortValues.comap fun document : Document =>
      resolveField document key.segments
  unfold compareByKey
  cases key.descending with
  | false =>
      exact values
  | true =>
      exact values.swapped

/-- The order of a sort is a total preorder. -/
theorem totalPreorder_compareByKeys (keys : List SortKey) :
    TotalPreorder (compareByKeys keys) := by
  induction keys with
  | nil =>
      exact ⟨fun _ _ => rfl, fun _ _ _ _ => id⟩
  | cons key keys inductionHypothesis =>
      have both := (totalPreorder_compareByKey key).then inductionHypothesis
      rw [show compareByKeys (key :: keys) = fun left right =>
          (compareByKey key left right).then (compareByKeys keys left right) from
        funext₂ (compareByKeys_cons key keys)]
      exact both

/-- `find` with a sort returns a slice of the sorted matches. -/
theorem consume_sorted_find
    {collection : Collection}
    {filter : Document}
    {options : StorageFindOptions}
    {specification : List SortEntry}
    {test : CompiledFilter}
    {sorter : CompiledSort}
    {skip : Nat}
    {limit : Option Nat}
    {matched : List LocatedDocument}
    (compiles : compileFilter filter = .ok test)
    (isSort : options.sort = some specification)
    (sorts : compileSort specification = .ok sorter)
    (isSkip : validateSkip options.skip = .ok skip)
    (isLimit : validateLimit options.limit = .ok limit)
    (found : allMatches test (collection.candidates filter) = .ok matched) :
    ∃ scan,
      Collection.find filter options = .ok scan ∧
        ∀ calls,
          scan.consume collection calls =
            .ok ((sliceOf skip limit
              (sorter (matched.map LocatedDocument.document))).take calls) := by
  have mapped : options.sort.mapM compileSort = .ok (some sorter) := by
    rw [isSort, Option.mapM_some, sorts]
    rfl
  refine ⟨⟨filter, test, some sorter, skip, limit, .waiting⟩, ?_, ?_⟩
  · rw [Collection.find, compiles, mapped, isSkip, isLimit]
    rfl
  · intro calls
    cases calls with
    | zero =>
        rfl
    | succ calls =>
        have steps :
            (Scan.mk filter test (some sorter) skip limit .waiting).step
                collection =
              Scan.nextSorted (sliceOf skip limit
                (sorter (matched.map LocatedDocument.document))) := by
          simp only [Scan.step, found]
          rfl
        exact Scan.consume_nextSorted steps (Scan.consume_sorted calls)

/-- What it means that the order of a sort is a real one. -/
structure SortsByOrder : Prop where
  /-- Document values are totally preordered. -/
  preorder : TotalPreorder compareDocumentValues
  /-- Numbers and bigints are compared exactly, with NaN below the others. -/
  numbers :
    ∀ left right,
      rankOf left = .number → rankOf right = .number →
        compareDocumentValues left right =
          cmp (numberLine left) (numberLine right)
  /-- A missing field is below everything. -/
  missing : ∀ value, compareSortValues none (some value) = .lt
  /-- Documents are compared by the first key in which they differ. -/
  composite :
    ∀ keys left right,
      (compareByKeys keys left right = .lt ↔ KeysPrecede keys left right) ∧
        (compareByKeys keys left right = .eq ↔
          ∀ key ∈ keys, compareByKey key left right = .eq)
  /-- A sort returns the one stable permutation that is in order. -/
  sorts :
    ∀ specification sorter,
      compileSort specification = .ok sorter →
        ∃ keys,
          parseSortSpecification specification = .ok keys ∧
            ∀ documents result,
              StablySorted (compareByKeys keys) documents result ↔
                result = sorter documents
  /-- `find` returns its slice. -/
  finds :
    ∀ (collection : Collection) filter options specification test sorter skip
        limit matched,
      compileFilter filter = .ok test →
        options.sort = some specification →
        compileSort specification = .ok sorter →
        validateSkip options.skip = .ok skip →
        validateLimit options.limit = .ok limit →
        allMatches test (collection.candidates filter) = .ok matched →
        ∃ scan,
          Collection.find filter options = .ok scan ∧
            ∀ calls,
              scan.consume collection calls =
                .ok ((sliceOf skip limit
                  (sorter (matched.map LocatedDocument.document))).take calls)
  /-- Range filters and indexes compare the values of a class alike. -/
  ranges :
    ∀ left right valueClass,
      valueClassOf left = some valueClass →
        valueClassOf right = some valueClass →
          compareValues left right = some (compareDocumentValues left right)

end SinterDb
