import SinterDb.Server.CursorRun
import SinterDb.Server.MissingCollection

namespace SinterDb

open Unicode

/-!
# When a missing collection answers like an empty one

Every command that reads, changes or deletes documents answers on a missing
collection as on an empty one, except where only the collection would have
checked the parameters: `find` and `findOne` do not compile their filter, and
`replaceOne` does not check its replacement.
-/

namespace Server

/-- The commands that read, change or delete documents where they are. -/
def worksInPlace : List ServerCommand :=
  [.find, .findOne, .explain, .validateIndexes, .deleteOne, .deleteMany,
    .replaceOne, .updateOne, .updateMany]

/-- The parameter with the change of a command that may upsert. -/
def changeParameter : ServerCommand → Option String
  | .replaceOne => some "replacement"
  | .updateOne => some "update"
  | .updateMany => some "update"
  | _ => none

/-- The parameters pass what only a collection that exists would check. -/
def PassesUnchecked (command : CommandEnvelope) : ServerCommand → Prop
  | .findOne =>
      ∀ space filter,
        filterParameters command = .ok (space, filter) → space.Valid →
          (compileFilter filter).isOk = true
  | .find =>
      ∀ parameters, findParameters command = .ok parameters →
        parameters.space.Valid →
          (Collection.findWith parameters.filter
            parameters.options).isOk = true
  | .replaceOne =>
      ∀ parameters, updateParameters "replacement" command = .ok parameters →
        parameters.space.Valid →
          (compileFilter parameters.filter).isOk = true →
            (validateReplacement parameters.change).isOk = true
  | _ => True

section Replies

variable
  {missing existing : Server}
  {command : CommandEnvelope}

/-- A write that does nothing answers what it returns. -/
theorem write_done
    {α : Type}
    {server : Server}
    {space : Namespace}
    {store : Collection}
    {result : Except Thrown α}
    {reply : α → Document} :
    (server.write space (.done store result) reply).1 =
      (result.map reply).mapError .thrown :=
  rfl

/-- The namespace of a command that has a filter. -/
theorem requireNamespace_of_filterParameters
    {space : Namespace}
    {filter : Document}
    (checked : filterParameters command = .ok (space, filter)) :
    requireNamespace command = .ok space := by
  rcases Result.bind_eq_ok.mp checked with ⟨found, isSpace, checked⟩
  rcases Result.bind_eq_ok.mp checked with ⟨other, -, same⟩
  cases same
  exact isSpace

/-- The namespace of a command that changes documents. -/
theorem requireNamespace_of_updateParameters
    {change : String}
    {parameters : UpdateParameters}
    (checked : updateParameters change command = .ok parameters) :
    requireNamespace command = .ok parameters.space := by
  rcases Result.bind_eq_ok.mp checked with ⟨space, isSpace, checked⟩
  rcases Result.bind_eq_ok.mp checked with ⟨filter, -, checked⟩
  rcases Result.bind_eq_ok.mp checked with ⟨document, -, checked⟩
  rcases Result.bind_eq_ok.mp checked with ⟨upsert, -, same⟩
  cases same
  exact isSpace

/-- The namespace of a `find`, and its batch size. -/
theorem requireNamespace_of_findParameters
    {parameters : FindCommand}
    (checked : findParameters command = .ok parameters) :
    requireNamespace command = .ok parameters.space ∧
      optionalBatchSize command.parameters = .ok parameters.batchSize := by
  rcases Result.bind_eq_ok.mp checked with ⟨space, isSpace, checked⟩
  rcases Result.bind_eq_ok.mp checked with ⟨filter, -, checked⟩
  rcases Result.bind_eq_ok.mp checked with ⟨batchSize, isSize, checked⟩
  rcases Result.bind_eq_ok.mp checked with ⟨options, -, same⟩
  cases same
  exact ⟨isSpace, isSize⟩

/-- A batch size that was checked is a positive number. -/
theorem batchSize_known
    {batchSize : Option JsNumber}
    (checked : optionalBatchSize command.parameters = .ok batchSize) :
    ∃ size,
      positiveSafeInteger? (batchSize.getD defaultCursorBatchSize) =
        some (size + 1) := by
  unfold optionalBatchSize readParameter at checked
  split at checked
  · rename_i value isSize
    cases Except.ok.inj checked
    unfold batchSize? at isSize
    split at isSize
    · cases isSize
      exact ⟨99, by decide +kernel⟩
    · split at isSize
      · rename_i number size isInteger
        split_ifs at isSize
        cases isSize
        have positive := (CursorManager.positiveSafeInteger?_bounds isInteger).1
        refine ⟨size - 1, ?_⟩
        rw [Option.getD_some, isInteger, Nat.sub_add_cancel positive]
      · cases isSize
    · cases isSize
  · cases checked

/-- A cursor over an empty collection is exhausted at once. -/
theorem openCursor_bare
    {server : Server}
    {space : Namespace}
    {collection : Collection}
    (found :
      server.catalog.lookup space.database space.collection = some collection)
    (bare : collection.Bare)
    {filter : Document}
    {options : FindParameters}
    {scan : Scan}
    (finds : Collection.findWith filter options = .ok scan)
    {batchSize : JsNumber}
    (isSize : ∃ size, positiveSafeInteger? batchSize = some (size + 1))
    {moment : Moment} :
    (server.openCursor ⟨space, scan, none⟩ batchSize moment).1 =
      .ok (toBatchDocument ⟨none, []⟩) := by
  rcases isSize with ⟨size, isSize⟩
  rcases bare.next_eq finds with ⟨after, isNext⟩
  have next :
      server.catalog.next ⟨space, scan, none⟩ =
        (none, ⟨space, after, none⟩) := by
    unfold Catalog.next
    simp only [found, Option.getD_some, isNext]
  have taken (maxBatchBytes : Nat) :
      takeBatch server.catalog.next
          ⟨⟨space, scan, none⟩, none, false, moment.useTime⟩ (size + 1)
          maxBatchBytes =
        ([], ⟨⟨space, after, none⟩, none, true, moment.useTime⟩) := by
    unfold takeBatch
    simp only [takeLoop, next]
  unfold openCursor thrownInBatch CursorManager.openCursor validateBatchSize
  simp only [isSize, taken, Option.bind_eq_bind, Option.bind_some,
    Option.bind_none, CursorState.isExhausted, Option.isNone_none,
    Bool.and_self, if_true]
  rfl

section Apart

variable
  (apart :
    ∀ space, requireNamespace command = .ok space →
      Apart missing existing space)

include apart

/-- `deleteOne` and `deleteMany` agree. -/
theorem deleteDocuments_eq
    (many : Bool) :
    (missing.deleteDocuments command many).1 =
      (existing.deleteDocuments command many).1 := by
  refine check_eq_iff.mpr ?_
  rintro ⟨space, filter⟩ checked
  refine (apart space (requireNamespace_of_filterParameters
    checked)).onCollection_eq ?_
  intro collection bare
  cases many
  · simp only [Bool.false_eq_true, if_false]
    rw [bare.deleteOne_eq, write_done]
    cases compileFilter filter <;> rfl
  · simp only [if_true]
    rw [bare.deleteMany_eq, write_done]
    cases compileFilter filter <;> rfl

/-- `explain` agrees. -/
theorem explain_eq :
    (missing.explain command).1 = (existing.explain command).1 := by
  refine check_eq_iff.mpr ?_
  rintro ⟨space, filter⟩ checked
  refine (apart space (requireNamespace_of_filterParameters
    checked)).onCollection_eq ?_
  intro collection bare
  unfold read
  rw [bare.explain_eq]
  cases compileFilter filter <;> rfl

/-- `validateIndexes` agrees. -/
theorem validateIndexes_eq :
    (missing.validateIndexes command).1 =
      (existing.validateIndexes command).1 := by
  refine check_eq_iff.mpr ?_
  intro space checked
  refine (apart space checked).onCollection_eq ?_
  intro collection bare
  unfold read
  rw [bare.validateIndexes_eq, bare.indexes, bare.documents]
  rfl

/-- `updateOne` and `updateMany` agree without an upsert. -/
theorem updateDocuments_eq
    {moment : Moment}
    (withoutUpsert :
      ∀ parameters, updateParameters "update" command = .ok parameters →
        parameters.upsert = false)
    (many : Bool) :
    (missing.updateDocuments command moment many).1 =
      (existing.updateDocuments command moment many).1 := by
  refine check_eq_iff.mpr ?_
  intro parameters checked
  have noUpsert := withoutUpsert parameters checked
  unfold changeDocuments
  simp only [noUpsert, Bool.false_eq_true, if_false]
  refine (apart _ (requireNamespace_of_updateParameters
    checked)).onCollection_eq ?_
  intro collection bare
  cases many
  · simp only [Bool.false_eq_true, if_false]
    rw [bare.updateOne_eq, write_done]
    cases compileFilter parameters.filter <;>
      cases compileUpdate parameters.change <;> rfl
  · simp only [if_true]
    rw [bare.updateMany_eq, write_done]
    cases compileFilter parameters.filter <;>
      cases compileUpdate parameters.change <;> rfl

/-- `replaceOne` agrees without an upsert when the replacement is one. -/
theorem replaceOne_iff
    {moment : Moment}
    (withoutUpsert :
      ∀ parameters, updateParameters "replacement" command = .ok parameters →
        parameters.upsert = false) :
    (missing.replaceOne command moment).1 =
        (existing.replaceOne command moment).1 ↔
      PassesUnchecked command .replaceOne := by
  unfold replaceOne PassesUnchecked
  rw [check_eq_iff]
  refine forall_congr' fun parameters => forall_congr' fun checked => ?_
  have noUpsert := withoutUpsert parameters checked
  unfold changeDocuments
  simp only [noUpsert, Bool.false_eq_true, if_false]
  rw [(apart _ (requireNamespace_of_updateParameters
    checked)).onCollection_iff
      (fun collection bare => by rw [bare.replaceOne_eq, write_done])]
  refine forall_congr' fun isValid => ?_
  cases compileFilter parameters.filter with
  | error error =>
      exact iff_of_true rfl (fun isOk => by cases isOk)
  | ok test =>
      cases validateReplacement parameters.change with
      | error error =>
          exact iff_of_false (fun same => by cases same)
            (fun passes => Bool.false_ne_true (passes rfl))
      | ok valid =>
          exact iff_of_true rfl (fun _ => rfl)

/-- `findOne` agrees when its filter compiles. -/
theorem findOne_iff :
    (missing.findOne command).1 = (existing.findOne command).1 ↔
      PassesUnchecked command .findOne := by
  unfold findOne PassesUnchecked
  rw [check_eq_iff, Prod.forall]
  refine forall_congr' fun space => forall_congr' fun filter =>
    forall_congr' fun checked => ?_
  dsimp only
  rw [(apart space (requireNamespace_of_filterParameters
    checked)).onCollection_iff
      (fun collection bare => by unfold read; rw [bare.findOne_eq])]
  refine forall_congr' fun isValid => ?_
  cases compileFilter filter with
  | error error =>
      exact iff_of_false (fun same => by cases same) (fun isOk => by cases isOk)
  | ok test =>
      exact iff_of_true rfl rfl

/-- `find` agrees when its filter and its options compile. -/
theorem find_iff
    {moment : Moment} :
    (missing.find command moment).1 = (existing.find command moment).1 ↔
      PassesUnchecked command .find := by
  unfold find PassesUnchecked
  rw [check_eq_iff]
  refine forall_congr' fun parameters => forall_congr' fun checked => ?_
  rcases requireNamespace_of_findParameters checked with ⟨isSpace, isSize⟩
  have isApart := apart _ isSpace
  rcases isApart.present with ⟨collection, found, bare⟩
  rw [onCollection_absent isApart.absent, onCollection_present found,
    Namespace.Valid]
  cases validateNames parameters.space.database
      parameters.space.collection with
  | error error =>
      simp
  | ok valid =>
      simp only [Result.ok_bind, forall_const]
      cases finds :
          Collection.findWith parameters.filter parameters.options with
      | error error =>
          exact iff_of_false (fun same => by cases same)
            (fun isOk => by cases isOk)
      | ok scan =>
          refine iff_of_true ?_ rfl
          dsimp only
          rw [openCursor_bare found bare finds (batchSize_known isSize)]
          rfl

/--
The commands that work in place, without an upsert where they may, answer on a
missing collection as on an empty one exactly when their parameters pass what
only the empty one checks.
-/
theorem missing_answers_like_empty_iff
    {moment : Moment}
    {known : ServerCommand}
    (withoutUpsert :
      ∀ change, changeParameter known = some change →
        ∀ parameters, updateParameters change command = .ok parameters →
          parameters.upsert = false)
    (inPlace : known ∈ worksInPlace) :
    (missing.perform command moment known).1 =
        (existing.perform command moment known).1 ↔
      PassesUnchecked command known := by
  cases known with
  | find => exact find_iff apart
  | findOne => exact findOne_iff apart
  | replaceOne => exact replaceOne_iff apart (withoutUpsert "replacement" rfl)
  | explain => exact iff_of_true (explain_eq apart) True.intro
  | validateIndexes => exact iff_of_true (validateIndexes_eq apart) True.intro
  | deleteOne => exact iff_of_true (deleteDocuments_eq apart false) True.intro
  | deleteMany => exact iff_of_true (deleteDocuments_eq apart true) True.intro
  | updateOne =>
      exact iff_of_true
        (updateDocuments_eq apart (withoutUpsert "update" rfl) false) True.intro
  | updateMany =>
      exact iff_of_true
        (updateDocuments_eq apart (withoutUpsert "update" rfl) true) True.intro
  | _ => exact absurd inPlace (by decide)

end Apart

end Replies

/-- A server without the collection `shop.orders`. -/
def serverWithout : Server :=
  ⟨⟨none, .empty⟩, ⟨.empty, 1, 600000, 1000000⟩⟩

/-- The same after the collection was created. -/
def serverWith : Server :=
  { serverWithout with
    catalog :=
      serverWithout.catalog.register (utf16 "shop") (utf16 "orders") .empty }

/-- A `findOne` with an operator that does not exist. -/
def wrongFindOne : CommandEnvelope :=
  ⟨utf16 "findOne", some (utf16 "shop"),
    [textField "collection" (utf16 "orders"),
      (utf16 "filter",
        .document
          [(utf16 "count", .document [(utf16 "$above", .null)])])]⟩

/-- A wrong filter is only noticed when the collection exists. -/
theorem missing_answers_like_empty_iff_wrongFindOne :
    ∃ moment : Moment,
      (serverWithout.perform wrongFindOne moment .findOne).1 ≠
        (serverWith.perform wrongFindOne moment .findOne).1 := by
  have isSpace :
      requireNamespace wrongFindOne =
        .ok ⟨utf16 "shop", utf16 "orders"⟩ := by
    decide +kernel
  have apart :
      ∀ space, requireNamespace wrongFindOne = .ok space →
        Apart serverWithout serverWith space := by
    intro space checked
    cases isSpace.symm.trans checked
    exact ⟨rfl, .empty, rfl, rfl, rfl⟩
  refine ⟨⟨fun _ => ⟨List.replicate 16 7, CustomId.length_repeated 7⟩, 0, 0⟩,
    fun same => ?_⟩
  have passes :=
    (missing_answers_like_empty_iff apart (fun _ same => by cases same)
      (by decide : ServerCommand.findOne ∈ worksInPlace)).mp same
  have isValid : Namespace.Valid ⟨utf16 "shop", utf16 "orders"⟩ := by
    unfold Namespace.Valid
    rfl
  have compiles :=
    passes ⟨utf16 "shop", utf16 "orders"⟩
      [(utf16 "count", .document [(utf16 "$above", .null)])]
      (by decide +kernel) isValid
  revert compiles
  decide +kernel

end Server

end SinterDb
