import SinterDb.Storage.IndexSet

namespace SinterDb

open Unicode

/-!
# The query planner

The planner collects the constraints that a filter puts on fields, and picks
an index lookup when it expects fewer documents from it than from a scan.
-/

/-- `IndexAccess`. -/
inductive IndexAccess where
  | equal (values : List DocumentValue)
  | range (valueClass : ValueClass) (lower upper : Option IndexBound)
  deriving Repr, DecidableEq

/-- `QueryPlan`. -/
inductive QueryPlan where
  | collScan (estimated : Nat)
  | idLookup (keys : List JsString) (estimated : Nat)
  | ixScan
      (index : FieldIndex)
      (access : IndexAccess)
      (viaMembership : Bool)
      (estimated : Nat)

/-- `Constraint`. -/
inductive Constraint where
  | equal (value : DocumentValue)
  | member (values : List DocumentValue)
  | lower (value : DocumentValue) (inclusive : Bool)
  | upper (value : DocumentValue) (inclusive : Bool)
  deriving Repr, DecidableEq

/-- The estimate of a plan. -/
def QueryPlan.estimated : QueryPlan → Nat
  | .collScan estimated => estimated
  | .idLookup _ estimated => estimated
  | .ixScan _ _ _ estimated => estimated

/-- The constraint that one operator of an operator document puts. -/
def operatorConstraint
    (operator : JsString × DocumentValue) : Option Constraint :=
  let (name, operand) := operator
  if name = utf16 "$eq" then
    some (.equal operand)
  else if name = utf16 "$in" then
    match operand with
    | .array values => some (.member values)
    | _ => none
  else if name = utf16 "$gt" then
    some (.lower operand false)
  else if name = utf16 "$gte" then
    some (.lower operand true)
  else if name = utf16 "$lt" then
    some (.upper operand false)
  else if name = utf16 "$lte" then
    some (.upper operand true)
  else
    none

/-- The constraints that one field of a filter puts on its path. -/
def fieldConstraints (value : DocumentValue) : List Constraint :=
  match value with
  | .document operators =>
      if hasOperators operators then
        operators.filterMap operatorConstraint
      else
        [.equal value]
  | _ => [.equal value]

mutual

/--
`collect`.  The list that the map of the source holds for a field is what this
list holds under it, in the same order.
-/
def collect
    (filter : List (JsString × DocumentValue)) :
    List (JsString × Constraint) :=
  match filter with
  | [] => []
  | (field, value) :: rest =>
      (if field = utf16 "$and" then
        collectAnd value
      else if startsWithDollar field then
        []
      else
        (fieldConstraints value).map fun constraint => (field, constraint)) ++
        collect rest

/-- The constraints of the operand of `$and`. -/
def collectAnd (operand : DocumentValue) : List (JsString × Constraint) :=
  match operand with
  | .array clauses => collectClauses clauses
  | _ => []

/-- The constraints of the clauses of `$and`. -/
def collectClauses
    (clauses : List DocumentValue) : List (JsString × Constraint) :=
  match clauses with
  | [] => []
  | .document filter :: rest => collect filter ++ collectClauses rest
  | _ :: rest => collectClauses rest

end

/-- The constraints on one field. -/
def constraintsOf
    (constraints : List (JsString × Constraint))
    (field : JsString) : List Constraint :=
  (constraints.filter fun entry => entry.1 == field).map Prod.snd

/-- The key of a value that is an id. -/
def idKey? : DocumentValue → Option JsString
  | .customId id => some id.toHexString
  | _ => none

/-- The keys that a constraint on `_id` leaves, if it leaves few. -/
def idKeys : Constraint → Option (List JsString)
  | .equal value => some (idKey? value).toList
  | .member values => some ((values.filterMap idKey?).foldl addKey [])
  | _ => none

/-- One constraint of `planId`. -/
def betterId
    (best : Option (List JsString))
    (constraint : Constraint) : Option (List JsString) :=
  match idKeys constraint, best with
  | none, best => best
  | some keys, none => some keys
  | some keys, some best =>
      if keys.length < best.length then some keys else some best

/-- `planId`. -/
def planId (constraints : List Constraint) : Option QueryPlan :=
  (constraints.foldl betterId none).map fun keys =>
    .idLookup keys keys.length

/-- The values of `$in`, one for each canonical key. -/
def distinctValues (values : List DocumentValue) : List DocumentValue :=
  (JsMap.ofEntries (values.map fun value => (canonicalKey value, value))
    ).entries.map Prod.snd

/-- The equality plan of one constraint. -/
def planEqual (index : FieldIndex) : Constraint → Option QueryPlan
  | .equal value =>
      some (.ixScan index (.equal [value]) false (index.estimateEqual value))
  | .member values =>
      if index.hasArrayValues then
        none
      else
        let values := distinctValues values
        some (.ixScan index (.equal values) true
          (values.map index.estimateEqual).sum)
  | _ => none

/-- `compareSameClass(next.value, current.value)` against zero. -/
def compareSameClass (left right : DocumentValue) : Ordering :=
  (compareValues left right).getD .eq

/-- `tighter`, where the wanted order is the one of a tighter bound. -/
def tighter
    (current : Option IndexBound)
    (next : IndexBound)
    (wanted : Ordering) : IndexBound :=
  match current with
  | none => next
  | some current =>
      let comparison := compareSameClass next.value current.value
      if comparison = .eq then
        if next.inclusive then current else next
      else if comparison = wanted then
        next
      else
        current

/-- What the loop of `planRange` has found. -/
structure RangeBounds where
  valueClass : Option ValueClass
  lower : Option IndexBound
  upper : Option IndexBound
  deriving Repr, DecidableEq

/-- One bound in the loop of `planRange`; none when it returns. -/
def RangeBounds.narrow
    (bounds : RangeBounds)
    (value : DocumentValue)
    (change : RangeBounds → RangeBounds) : Option RangeBounds :=
  match valueClassOf value with
  | none => none
  | some operandClass =>
      if bounds.valueClass ≠ none ∧
          bounds.valueClass ≠ some operandClass then
        none
      else
        some (change { bounds with valueClass := some operandClass })

/-- One constraint in the loop of `planRange`. -/
def rangeStep
    (bounds : RangeBounds) : Constraint → Option RangeBounds
  | .lower value inclusive =>
      bounds.narrow value fun bounds =>
        { bounds with
          lower := some (tighter bounds.lower ⟨value, inclusive⟩ .gt) }
  | .upper value inclusive =>
      bounds.narrow value fun bounds =>
        { bounds with
          upper := some (tighter bounds.upper ⟨value, inclusive⟩ .lt) }
  | _ => some bounds

/-- `planRange`. -/
def planRange
    (index : FieldIndex)
    (constraints : List Constraint) : Option QueryPlan :=
  match constraints.foldlM rangeStep ⟨none, none, none⟩ with
  | none => none
  | some bounds =>
      bounds.valueClass.map fun valueClass =>
        .ixScan index (.range valueClass bounds.lower bounds.upper) false
          (index.estimateRange valueClass bounds.lower bounds.upper)

/-- `planIndex`. -/
def planIndex
    (index : FieldIndex)
    (constraints : List Constraint) : List QueryPlan :=
  constraints.filterMap (planEqual index) ++
    (planRange index constraints).toList

/-- A candidate takes the place of the best plan so far. -/
def isBetter (candidate best : QueryPlan) : Bool :=
  decide (candidate.estimated < best.estimated) ||
    decide (candidate.estimated = best.estimated) &&
      match candidate, best with
      | .ixScan _ (.equal _) _ _, .ixScan _ (.range _ _ _) _ _ => true
      | _, _ => false

/-- One candidate in the loop of `planQuery`. -/
def betterPlan (best candidate : QueryPlan) : QueryPlan :=
  if isBetter candidate best then candidate else best

/-- `planQuery`. -/
def planQuery
    (filter : Document)
    (indexes : List FieldIndex)
    (totalDocuments : Nat) : QueryPlan :=
  let scan := QueryPlan.collScan totalDocuments
  if totalDocuments = 0 then
    scan
  else
    let constraints := collect filter
    match planId (constraintsOf constraints (utf16 "_id")) with
    | some plan => plan
    | none =>
        (indexes.flatMap fun index =>
          planIndex index (constraintsOf constraints index.spec.field)
          ).foldl betterPlan scan

/-- `candidateKeys`; a collection scan has none. -/
def candidateKeys : QueryPlan → Option (List JsString)
  | .collScan _ => none
  | .idLookup keys _ => some (keys.foldl addKey [])
  | .ixScan index (.range valueClass lower upper) _ _ =>
      some (index.lookupRange valueClass lower upper)
  | .ixScan index (.equal values) _ _ =>
      some (values.foldl
        (fun keys value =>
          ((index.lookupEqual value).getD []).foldl addKey keys)
        [])

end SinterDb
