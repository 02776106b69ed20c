import SinterDb.Storage.FieldIndex

namespace SinterDb

open Unicode

/-!
# The indexes of a collection

Every index sees every change of a document.  A batch of changes removes first
and adds afterwards, and it is undone from its end when a unique index refuses
one of the additions.
-/

/-- `DocumentChange`. -/
structure DocumentChange where
  key : JsString
  before : Option Document
  after : Option Document
  deriving Repr, DecidableEq

/-- `IndexSet`: the indexes by name, in the order of their creation. -/
abbrev IndexSet := JsMap JsString FieldIndex

/-- What undoes one step of a batch. -/
inductive UndoStep where
  | add (index key : JsString) (document : Document)
  | remove (index key : JsString) (document : Document)
  deriving Repr, DecidableEq

/-- `duplicateKey`. -/
def duplicateKey (conflict : IndexConflict) : Thrown :=
  .storage
    ⟨.duplicateKey,
      utf16 "Duplicate key for unique index " ++ Json.quote conflict.index ++
        utf16 " on field " ++ Json.quote conflict.field ++ utf16 ": " ++
        conflict.description ++ utf16 ".",
      none⟩

/-- An `IndexConflict` error. -/
def indexConflict (message : JsString) : Thrown :=
  .storage ⟨.indexConflict, message, none⟩

/-- Undo one step. -/
def UndoStep.run (set : IndexSet) : UndoStep → IndexSet
  | .add name key document =>
      set.modify name fun index => index.add key document false
  | .remove name key document =>
      set.modify name fun index => index.remove key document

namespace IndexSet

/-- `isEmpty`. -/
def isEmpty (set : IndexSet) : Bool :=
  set.size == 0

/-- `all`. -/
def all (set : IndexSet) : List FieldIndex :=
  set.entries.map Prod.snd

/-- `specs`. -/
def specs (set : IndexSet) : List IndexSpec :=
  (all set).map FieldIndex.spec

/-- `drop`. -/
def drop (set : IndexSet) (name : JsString) : IndexSet :=
  set.delete name

/-- `CreateResult`: what `create` returns. -/
inductive CreateResult where
  | created
  | exists
  deriving Repr, DecidableEq

/-- One document of the build of an index. -/
def buildStep
    (index : FieldIndex)
    (entry : Except Thrown (JsString × Document)) :
    Except Thrown FieldIndex := do
  let (key, document) ← entry
  match index.conflictFor key document with
  | some conflict =>
      throw (.storage
        ⟨.duplicateKey,
          utf16 "Cannot create unique index " ++
            Json.quote index.spec.name ++
            utf16 ": existing documents have a duplicate " ++
            conflict.description ++ utf16 ".",
          none⟩)
  | none => return index.add key document true

/--
`create`.  The documents come from an iterator that decodes them one by one, so
each of them may throw instead.
-/
def create
    (set : IndexSet)
    (spec : IndexSpec)
    (documents : List (Except Thrown (JsString × Document))) :
    Except Thrown (IndexSet × CreateResult) :=
  match set.get? spec.name with
  | some existing =>
      if sameDefinition existing.spec spec then
        .ok (set, .exists)
      else
        .error (indexConflict
          (utf16 "An index named " ++ Json.quote spec.name ++
            utf16 " already exists with different options."))
  | none =>
      match (all set).find? fun other => other.spec.field == spec.field with
      | some other =>
          .error (indexConflict
            (utf16 "An index on field " ++ Json.quote spec.field ++
              utf16 " already exists as " ++ Json.quote other.spec.name ++
              utf16 ". Drop it before creating another."))
      | none =>
          if maxIndexesPerCollection ≤ set.size then
            .error (indexConflict
              (utf16 (s!"A collection can have at most " ++
                s!"{maxIndexesPerCollection} indexes besides _id.")))
          else do
            let index ←
              documents.foldlM buildStep (FieldIndex.create spec)
            return (set.set spec.name index.finishBulk, .created)

/-- Undo steps, from the last one back to the first one. -/
def rollback (undo : List UndoStep) (set : IndexSet) : IndexSet :=
  undo.reverse.foldl UndoStep.run set

/-- The removal of one change from every index. -/
def removeBefore
    (state : IndexSet × List UndoStep)
    (change : DocumentChange) : IndexSet × List UndoStep :=
  match change.before with
  | none => state
  | some before =>
      (state.1.mapValues fun index => index.remove change.key before,
        state.2 ++
          state.1.keys.map fun name => .add name change.key before)

/-- The addition of a document to some of the indexes, up to a conflict. -/
def addTo
    (key : JsString)
    (after : Document) :
    List JsString → IndexSet × List UndoStep →
      (IndexSet × List UndoStep) × Option IndexConflict
  | [], state => (state, none)
  | name :: rest, (set, undo) =>
      match set.get? name with
      | none => addTo key after rest (set, undo)
      | some index =>
          match index.conflictFor key after with
          | some conflict => ((set, undo), some conflict)
          | none =>
              addTo key after rest
                (set.set name (index.add key after false),
                  undo ++ [.remove name key after])

/-- The additions of the changes, in order, up to a conflict. -/
def addAfter :
    List DocumentChange → IndexSet × List UndoStep →
      (IndexSet × List UndoStep) × Option IndexConflict
  | [], state => (state, none)
  | change :: rest, state =>
      match change.after with
      | none => addAfter rest state
      | some after =>
          match addTo change.key after state.1.keys state with
          | (state, some conflict) => (state, some conflict)
          | (state, none) => addAfter rest state

/--
`applyChanges`: the set afterwards, and what undoes the changes or the error.
-/
def applyChanges
    (set : IndexSet)
    (changes : List DocumentChange) :
    IndexSet × Except Thrown (List UndoStep) :=
  if isEmpty set then
    (set, .ok [])
  else
    let removed := changes.foldl removeBefore (set, [])
    match addAfter changes removed with
    | ((set, undo), none) => (set, .ok undo)
    | ((set, undo), some conflict) =>
        (rollback undo set, .error (duplicateKey conflict))

end IndexSet

end SinterDb
