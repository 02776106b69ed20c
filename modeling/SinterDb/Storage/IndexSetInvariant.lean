import SinterDb.Storage.IndexLookup

namespace SinterDb

open Unicode

/-!
# What the indexes of a collection know

A batch of changes keeps every index well formed, and its rollback brings back
what the indexes knew of the stored documents.
-/

/-- A document whose values all have a canonical key. -/
def Document.Keyed (document : Document) : Prop :=
  ∀ path value, resolveField document path = some value → value.HasKey

namespace IndexSet

/-- Lookups can rely on every index. -/
def WellFormed (set : IndexSet) : Prop :=
  ∀ name index, set.get? name = some index → index.WellFormed

/-- The index of a name, if there is one, covers a document. -/
def Knows
    (set : IndexSet)
    (name key : JsString)
    (document : Document) : Prop :=
  ∀ index, set.get? name = some index → index.Covers key document

/-- What a step of a batch or of its rollback may do to a set. -/
structure Keeps
    (set changed : IndexSet)
    (exempt : JsString → Prop) : Prop where
  wellFormed : set.WellFormed → changed.WellFormed
  keys : changed.keys = set.keys
  knows :
    ∀ name key document, ¬ exempt key → set.Knows name key document →
      changed.Knows name key document

/-- Doing nothing keeps everything. -/
theorem Keeps.refl
    (set : IndexSet)
    (exempt : JsString → Prop) :
    Keeps set set exempt :=
  ⟨id, rfl, fun _ _ _ _ => id⟩

/-- Two steps in a row keep what both of them keep. -/
theorem Keeps.trans
    {first second third : IndexSet}
    {exempt : JsString → Prop}
    (left : Keeps first second exempt)
    (right : Keeps second third exempt) :
    Keeps first third exempt :=
  ⟨right.wellFormed ∘ left.wellFormed, right.keys.trans left.keys,
    fun name key document notExempt known =>
      right.knows name key document notExempt
        (left.knows name key document notExempt known)⟩

/-- A step with fewer exempt keys keeps more. -/
theorem Keeps.weaken
    {set changed : IndexSet}
    {exempt weaker : JsString → Prop}
    (keeps : Keeps set changed exempt)
    (implies : ∀ key, exempt key → weaker key) :
    Keeps set changed weaker :=
  ⟨keeps.wellFormed, keeps.keys, fun name key document notExempt =>
    keeps.knows name key document (fun isExempt => notExempt (implies key isExempt))⟩

/-- Changing the index of one name. -/
theorem keeps_modify
    (set : IndexSet)
    (name : JsString)
    {change : FieldIndex → FieldIndex}
    {exempt : JsString → Prop}
    (wellFormed :
      ∀ index, set.get? name = some index → index.WellFormed →
        (change index).WellFormed)
    (covers :
      ∀ index key document, ¬ exempt key → index.Covers key document →
        (change index).Covers key document) :
    Keeps set (set.modify name change) exempt := by
  refine ⟨?_, JsMap.keys_modify set name change, ?_⟩
  · intro good other index found
    rw [JsMap.get?_modify] at found
    split_ifs at found
    · obtain ⟨old, isOld, rfl⟩ := Option.map_eq_some_iff.mp found
      exact wellFormed old isOld (good name old isOld)
    · exact good other index found
  · intro other key document notExempt known index found
    rw [JsMap.get?_modify] at found
    split_ifs at found with same
    · obtain ⟨old, isOld, rfl⟩ := Option.map_eq_some_iff.mp found
      exact covers old key document notExempt (known old (same ▸ isOld))
    · exact known index found

/-- Adding a document to one index keeps everything. -/
theorem keeps_add
    (set : IndexSet)
    (name key : JsString)
    {document : Document}
    (keyed : document.Keyed)
    (exempt : JsString → Prop) :
    Keeps set (set.modify name fun index => index.add key document false)
      exempt :=
  keeps_modify set name
    (fun _ _ good => FieldIndex.wellFormed_add good fun _ => keyed _ _)
    (fun _ _ _ _ => FieldIndex.covers_add)

/-- Removing a document from one index keeps what it knows of others. -/
theorem keeps_remove
    (set : IndexSet)
    (name key : JsString)
    (document : Document)
    {exempt : JsString → Prop}
    (isExempt : exempt key) :
    Keeps set (set.modify name fun index => index.remove key document)
      exempt :=
  keeps_modify set name
    (fun _ _ good => FieldIndex.wellFormed_remove good)
    (fun _ _ _ notExempt covered =>
      FieldIndex.covers_remove covered fun same =>
        notExempt (same ▸ isExempt))

/-- The index to which a document was added knows it. -/
theorem knows_add
    (set : IndexSet)
    (name key : JsString)
    (document : Document) :
    Knows (set.modify name fun index => index.add key document false)
      name key document := by
  intro index found
  rw [JsMap.get?_modify, if_pos rfl] at found
  obtain ⟨old, -, rfl⟩ := Option.map_eq_some_iff.mp found
  exact FieldIndex.covers_add_self

/-- Steps that only add documents. -/
def Additions (steps : List UndoStep) : Prop :=
  ∀ step ∈ steps, ∃ name key document,
    step = .add name key document ∧ document.Keyed

/-- Steps that only remove documents with certain keys. -/
def Removals (steps : List UndoStep) (keys : JsString → Prop) : Prop :=
  ∀ step ∈ steps, ∃ name key document,
    step = .remove name key document ∧ keys key

/-- Additions keep everything. -/
theorem keeps_additions
    {steps : List UndoStep}
    (additions : Additions steps)
    (set : IndexSet)
    (exempt : JsString → Prop) :
    Keeps set (steps.foldl UndoStep.run set) exempt := by
  induction steps generalizing set with
  | nil =>
      exact Keeps.refl set exempt
  | cons step rest inductionHypothesis =>
      obtain ⟨⟨name, key, document, rfl, keyed⟩, later⟩ :=
        List.forall_mem_cons.mp additions
      exact (keeps_add set name key keyed exempt).trans
        (inductionHypothesis later _)

/-- Removals keep what is known of documents with other keys. -/
theorem keeps_removals
    {steps : List UndoStep}
    {exempt : JsString → Prop}
    (removals : Removals steps exempt)
    (set : IndexSet) :
    Keeps set (steps.foldl UndoStep.run set) exempt := by
  induction steps generalizing set with
  | nil =>
      exact Keeps.refl set exempt
  | cons step rest inductionHypothesis =>
      obtain ⟨⟨name, key, document, rfl, isExempt⟩, later⟩ :=
        List.forall_mem_cons.mp removals
      exact (keeps_remove set name key document isExempt).trans
        (inductionHypothesis later _)

/-- After additions the documents that were added are known. -/
theorem knows_of_additions
    {steps : List UndoStep}
    (additions : Additions steps)
    (set : IndexSet)
    {name key : JsString}
    {document : Document}
    (member : .add name key document ∈ steps) :
    Knows (steps.foldl UndoStep.run set) name key document := by
  induction steps generalizing set with
  | nil =>
      cases member
  | cons step rest inductionHypothesis =>
      have later := (List.forall_mem_cons.mp additions).2
      rcases List.mem_cons.mp member with rfl | member
      · exact (keeps_additions later _ (fun _ => False)).knows name key
          document id (knows_add set name key document)
      · exact inductionHypothesis later _ member

/-- The changes are about documents whose values have canonical keys. -/
def KeyedChanges (changes : List DocumentChange) : Prop :=
  ∀ change ∈ changes,
    (∀ before, change.before = some before → before.Keyed) ∧
      ∀ after, change.after = some after → after.Keyed

/-- The key of a change that replaces or removes a document. -/
def IsReplaced (changes : List DocumentChange) (key : JsString) : Prop :=
  ∃ change ∈ changes, change.key = key ∧ change.before ≠ none

/-- The key of a change. -/
def IsChanged (changes : List DocumentChange) (key : JsString) : Prop :=
  ∃ change ∈ changes, change.key = key

/-- Removing one document from every index. -/
theorem keeps_removeBefore
    (state : IndexSet × List UndoStep)
    (change : DocumentChange) :
    Keeps state.1 (removeBefore state change).1
      (fun key => change.key = key ∧ change.before ≠ none) := by
  unfold removeBefore
  cases isBefore : change.before with
  | none =>
      exact Keeps.refl _ _
  | some before =>
      refine ⟨?_, JsMap.keys_mapValues _ _, ?_⟩
      · intro good name index found
        rw [JsMap.get?_mapValues] at found
        obtain ⟨old, isOld, rfl⟩ := Option.map_eq_some_iff.mp found
        exact FieldIndex.wellFormed_remove (good name old isOld)
      · intro name key document notExempt known index found
        rw [JsMap.get?_mapValues] at found
        obtain ⟨old, isOld, rfl⟩ := Option.map_eq_some_iff.mp found
        exact FieldIndex.covers_remove (known old isOld) fun same =>
          notExempt ⟨same.symm, by simp⟩

/-- The removals of a batch, and the steps that undo them. -/
theorem removeBefore_spec
    (changes : List DocumentChange)
    (state : IndexSet × List UndoStep) :
    let result := changes.foldl removeBefore state
    Keeps state.1 result.1 (IsReplaced changes) ∧
      ∃ adds, result.2 = state.2 ++ adds ∧
        (∀ step ∈ adds, ∃ change ∈ changes, ∃ before name,
          change.before = some before ∧
            step = .add name change.key before) ∧
        ∀ change ∈ changes, ∀ before, change.before = some before →
          ∀ name ∈ state.1.keys, .add name change.key before ∈ adds := by
  induction changes generalizing state with
  | nil =>
      exact ⟨Keeps.refl _ _, [], by simp⟩
  | cons change rest inductionHypothesis =>
      obtain ⟨keepsRest, adds, undo, fromChanges, allThere⟩ :=
        inductionHypothesis (removeBefore state change)
      have keepsFirst := keeps_removeBefore state change
      refine ⟨(keepsFirst.weaken ?_).trans (keepsRest.weaken ?_), ?_⟩
      · rintro key ⟨isKey, replaced⟩
        exact ⟨change, List.mem_cons_self, isKey, replaced⟩
      · rintro key ⟨other, member, isReplaced⟩
        exact ⟨other, List.mem_cons_of_mem _ member, isReplaced⟩
      · rw [keepsFirst.keys] at allThere
        cases isBefore : change.before with
        | none =>
            have same : removeBefore state change = state := by
              unfold removeBefore
              rw [isBefore]
            rw [same] at undo
            refine ⟨adds, by rw [List.foldl_cons, same, undo], ?_, ?_⟩
            · intro step member
              obtain ⟨other, inRest, isStep⟩ := fromChanges step member
              exact ⟨other, List.mem_cons_of_mem _ inRest, isStep⟩
            · rw [List.forall_mem_cons]
              refine ⟨?_, allThere⟩
              intro before isSome
              rw [isBefore] at isSome
              cases isSome
        | some before =>
            have steps :
                (removeBefore state change).2 =
                  state.2 ++ state.1.keys.map fun name =>
                    .add name change.key before := by
              unfold removeBefore
              rw [isBefore]
            refine ⟨(state.1.keys.map fun name =>
              .add name change.key before) ++ adds, ?_, ?_, ?_⟩
            · rw [List.foldl_cons, undo, steps, List.append_assoc]
            · intro step member
              rcases List.mem_append.mp member with isFirst | isLater
              · obtain ⟨name, -, rfl⟩ := List.mem_map.mp isFirst
                exact ⟨change, List.mem_cons_self, before, name, isBefore, rfl⟩
              · obtain ⟨other, inRest, isStep⟩ := fromChanges step isLater
                exact ⟨other, List.mem_cons_of_mem _ inRest, isStep⟩
            · rw [List.forall_mem_cons]
              constructor
              · intro other isOther name member
                obtain rfl := Option.some.inj (isBefore.symm.trans isOther)
                exact List.mem_append_left _
                  (List.mem_map.mpr ⟨name, member, rfl⟩)
              · intro other inRest earlier isEarlier name member
                exact List.mem_append_right _
                  (allThere other inRest earlier isEarlier name member)

/-- The addition of one document, and the steps that undo it. -/
theorem addTo_spec
    {key : JsString}
    {after : Document}
    (keyed : after.Keyed)
    (names : List JsString)
    (state : IndexSet × List UndoStep) :
    let result := addTo key after names state
    Keeps state.1 result.1.1 (fun _ => False) ∧
      (∃ removes, result.1.2 = state.2 ++ removes ∧
        ∀ step ∈ removes, ∃ name, step = .remove name key after) ∧
      (result.2 = none →
        ∀ name ∈ names, result.1.1.Knows name key after) := by
  induction names generalizing state with
  | nil =>
      exact ⟨Keeps.refl _ _, ⟨[], by simp [addTo]⟩, by simp⟩
  | cons name rest inductionHypothesis =>
      obtain ⟨set, undo⟩ := state
      unfold addTo
      cases found : set.get? name with
      | none =>
          obtain ⟨keeps, steps, known⟩ := inductionHypothesis (set, undo)
          refine ⟨keeps, steps, fun noConflict => ?_⟩
          rw [List.forall_mem_cons]
          refine ⟨?_, known noConflict⟩
          intro index isIndex
          have absent := JsMap.get?_eq_none.mp found
          rw [← keeps.keys, ← JsMap.get?_eq_none] at absent
          rw [absent] at isIndex
          cases isIndex
      | some index =>
          simp only
          cases index.conflictFor key after with
          | some conflict =>
              exact ⟨Keeps.refl _ _, ⟨[], by simp⟩, by simp⟩
          | none =>
              have step :
                  set.set name (index.add key after false) =
                    set.modify name fun index => index.add key after false := by
                unfold JsMap.modify
                rw [found]
              obtain ⟨keeps, ⟨removes, isUndo, isRemove⟩, known⟩ :=
                inductionHypothesis
                  (set.set name (index.add key after false),
                    undo ++ [.remove name key after])
              have keepsFirst := keeps_add set name key keyed (fun _ => False)
              rw [← step] at keepsFirst
              refine ⟨keepsFirst.trans keeps,
                ⟨.remove name key after :: removes, ?_, ?_⟩, ?_⟩
              · rw [isUndo]
                simp
              · rw [List.forall_mem_cons]
                exact ⟨⟨name, rfl⟩, isRemove⟩
              · intro noConflict
                rw [List.forall_mem_cons]
                refine ⟨keeps.knows name key after id ?_, known noConflict⟩
                rw [step]
                exact knows_add set name key after

/-- The additions of a batch, and the steps that undo them. -/
theorem addAfter_spec
    {changes : List DocumentChange}
    (keyed : KeyedChanges changes)
    (state : IndexSet × List UndoStep) :
    let result := addAfter changes state
    Keeps state.1 result.1.1 (fun _ => False) ∧
      (∃ removes, result.1.2 = state.2 ++ removes ∧
        Removals removes (IsChanged changes)) ∧
      (result.2 = none →
        ∀ change ∈ changes, ∀ after, change.after = some after →
          ∀ name, result.1.1.Knows name change.key after) := by
  induction changes generalizing state with
  | nil =>
      exact ⟨Keeps.refl _ _, ⟨[], by simp [addAfter], by simp [Removals]⟩,
        by simp⟩
  | cons change rest inductionHypothesis =>
      obtain ⟨⟨-, keyedAfter⟩, keyedRest⟩ := List.forall_mem_cons.mp keyed
      have widen : ∀ key, IsChanged rest key →
          IsChanged (change :: rest) key := by
        rintro key ⟨other, member, isKey⟩
        exact ⟨other, List.mem_cons_of_mem _ member, isKey⟩
      unfold addAfter
      cases isAfter : change.after with
      | none =>
          obtain ⟨keeps, ⟨removes, isUndo, isRemoval⟩, known⟩ :=
            inductionHypothesis keyedRest state
          refine ⟨keeps, ⟨removes, isUndo, ?_⟩, ?_⟩
          · intro step member
            obtain ⟨name, key, document, isStep, isChanged⟩ :=
              isRemoval step member
            exact ⟨name, key, document, isStep, widen key isChanged⟩
          · intro noConflict
            rw [List.forall_mem_cons]
            refine ⟨?_, known noConflict⟩
            intro after isSome
            rw [isAfter] at isSome
            cases isSome
      | some after =>
          obtain ⟨keepsFirst, ⟨firstRemoves, firstUndo, isFirst⟩,
            knownFirst⟩ :=
            @addTo_spec change.key after (keyedAfter after isAfter)
              state.1.keys state
          simp only
          split
          · rename_i reached conflict isResult
            rw [isResult] at keepsFirst firstUndo
            refine ⟨keepsFirst, ⟨firstRemoves, firstUndo, ?_⟩, by simp⟩
            intro step member
            obtain ⟨name, rfl⟩ := isFirst step member
            exact ⟨name, change.key, after, rfl, change, List.mem_cons_self,
              rfl⟩
          · rename_i reached isResult
            rw [isResult] at keepsFirst firstUndo knownFirst
            obtain ⟨keeps, ⟨removes, isUndo, isRemoval⟩, known⟩ :=
              inductionHypothesis keyedRest reached
            refine ⟨keepsFirst.trans keeps,
              ⟨firstRemoves ++ removes, ?_, ?_⟩, ?_⟩
            · rw [isUndo, firstUndo, List.append_assoc]
            · intro step member
              rcases List.mem_append.mp member with inFirst | inLater
              · obtain ⟨name, rfl⟩ := isFirst step inFirst
                exact ⟨name, change.key, after, rfl, change,
                  List.mem_cons_self, rfl⟩
              · obtain ⟨name, key, document, isStep, isChanged⟩ :=
                  isRemoval step inLater
                exact ⟨name, key, document, isStep, widen key isChanged⟩
            · intro noConflict
              rw [List.forall_mem_cons]
              refine ⟨?_, known noConflict⟩
              intro other isOther name
              obtain rfl := Option.some.inj (isAfter.symm.trans isOther)
              apply keeps.knows name change.key after id
              by_cases present : name ∈ state.1.keys
              · exact knownFirst rfl name present
              · intro index isIndex
                rw [← keepsFirst.keys, ← JsMap.get?_eq_none] at present
                rw [present] at isIndex
                cases isIndex

/-- What undoes a batch: documents added again, after others are removed. -/
structure Undoes
    (changes : List DocumentChange)
    (names : List JsString)
    (undo : List UndoStep) : Prop where
  parts :
    ∃ adds removes, undo = adds ++ removes ∧
      (∀ step ∈ adds, ∃ change ∈ changes, ∃ before name,
        change.before = some before ∧ step = .add name change.key before) ∧
      (∀ change ∈ changes, ∀ before, change.before = some before →
        ∀ name ∈ names, .add name change.key before ∈ adds) ∧
      Removals removes (IsChanged changes)

/-- A rollback brings back what the indexes knew of stored documents. -/
theorem rollback_spec
    {changes : List DocumentChange}
    {undo : List UndoStep}
    {set : IndexSet}
    (keyed : KeyedChanges changes)
    (undoes : Undoes changes set.keys undo) :
    Keeps set (rollback undo set) (IsChanged changes) ∧
      ∀ change ∈ changes, ∀ before, change.before = some before →
        ∀ name, (rollback undo set).Knows name change.key before := by
  obtain ⟨adds, removes, rfl, fromChanges, allThere, removals⟩ := undoes.parts
  have additions : Additions adds.reverse := by
    intro step member
    obtain ⟨change, inChanges, before, name, isBefore, rfl⟩ :=
      fromChanges step (List.mem_reverse.mp member)
    exact ⟨name, change.key, before, rfl,
      (keyed change inChanges).1 before isBefore⟩
  have removalsBack : Removals removes.reverse (IsChanged changes) :=
    fun step member => removals step (List.mem_reverse.mp member)
  have split :
      rollback (adds ++ removes) set =
        adds.reverse.foldl UndoStep.run
          (removes.reverse.foldl UndoStep.run set) := by
    unfold rollback
    rw [List.reverse_append, List.foldl_append]
  have keeps :=
    (keeps_removals removalsBack set).trans
      (keeps_additions additions _ _)
  rw [split]
  refine ⟨keeps, ?_⟩
  intro change inChanges before isBefore name
  by_cases present : name ∈ set.keys
  · exact knows_of_additions additions _ (List.mem_reverse.mpr
      (allThere change inChanges before isBefore name present))
  · intro index isIndex
    rw [← keeps.keys, ← JsMap.get?_eq_none] at present
    rw [present] at isIndex
    cases isIndex

/-- A batch that is accepted. -/
theorem applyChanges_ok
    {set changed : IndexSet}
    {changes : List DocumentChange}
    {undo : List UndoStep}
    (keyed : KeyedChanges changes)
    (applies : applyChanges set changes = (changed, .ok undo)) :
    Keeps set changed (IsReplaced changes) ∧
      (∀ change ∈ changes, ∀ after, change.after = some after →
        ∀ name, changed.Knows name change.key after) ∧
      Undoes changes changed.keys undo := by
  unfold applyChanges at applies
  split_ifs at applies with empty
  · obtain ⟨rfl, isUndo⟩ := Prod.mk.inj applies
    obtain rfl := Except.ok.inj isUndo
    have noKeys : set.keys = [] := by
      simpa [isEmpty, JsMap.size, JsMap.keys] using empty
    refine ⟨Keeps.refl _ _, ?_,
      ⟨[], [], rfl, by simp, by simp [noKeys], by simp [Removals]⟩⟩
    intro change _ after _ name index isIndex
    have absent : name ∉ set.keys := by simp [noKeys]
    rw [JsMap.get?_eq_none.mpr absent] at isIndex
    cases isIndex
  · obtain ⟨keepsRemoved, adds, addsUndo, fromChanges, allThere⟩ :=
      removeBefore_spec changes (set, [])
    obtain ⟨keepsAdded, ⟨removes, removesUndo, removals⟩, known⟩ :=
      addAfter_spec keyed (changes.foldl removeBefore (set, []))
    simp only at applies
    split at applies
    · rename_i final finalUndo isResult
      rw [isResult] at keepsAdded removesUndo known
      obtain ⟨rfl, isUndo⟩ := Prod.mk.inj applies
      obtain rfl := Except.ok.inj isUndo
      have keeps :=
        keepsRemoved.trans (keepsAdded.weaken fun _ => False.elim)
      refine ⟨keeps, known rfl, ⟨adds, removes, ?_, fromChanges, ?_, removals⟩⟩
      · simp only [List.nil_append] at addsUndo
        rw [← addsUndo, ← removesUndo]
      · rw [keeps.keys]
        exact allThere
    · cases (Prod.mk.inj applies).2

/-- A batch that is refused leaves what was known of stored documents. -/
theorem applyChanges_error
    {set changed : IndexSet}
    {changes : List DocumentChange}
    {error : Thrown}
    (keyed : KeyedChanges changes)
    (applies : applyChanges set changes = (changed, .error error)) :
    Keeps set changed (IsChanged changes) ∧
      ∀ change ∈ changes, ∀ before, change.before = some before →
        ∀ name, changed.Knows name change.key before := by
  unfold applyChanges at applies
  split_ifs at applies with empty
  · cases (Prod.mk.inj applies).2
  · obtain ⟨keepsRemoved, adds, addsUndo, fromChanges, allThere⟩ :=
      removeBefore_spec changes (set, [])
    obtain ⟨keepsAdded, ⟨removes, removesUndo, removals⟩, -⟩ :=
      addAfter_spec keyed (changes.foldl removeBefore (set, []))
    simp only at applies
    split at applies
    · cases (Prod.mk.inj applies).2
    · rename_i reached undo conflict isResult
      rw [isResult] at keepsAdded removesUndo
      obtain ⟨rfl, -⟩ := Prod.mk.inj applies
      have keeps :=
        keepsRemoved.trans (keepsAdded.weaken fun _ => False.elim)
      have replaced : ∀ key, IsReplaced changes key → IsChanged changes key := by
        rintro key ⟨change, member, isKey, -⟩
        exact ⟨change, member, isKey⟩
      have undoes : Undoes changes reached.keys undo := by
        refine ⟨adds, removes, ?_, fromChanges, ?_, removals⟩
        · simp only [List.nil_append] at addsUndo
          rw [← addsUndo, ← removesUndo]
        · rw [keeps.keys]
          exact allThere
      obtain ⟨keepsBack, knows⟩ := rollback_spec keyed undoes
      exact ⟨(keeps.weaken replaced).trans keepsBack, knows⟩

/-- Building an index over decoded documents covers all of them. -/
theorem build_spec
    {documents : List (Except Thrown (JsString × Document))}
    {index built : FieldIndex}
    (keyed :
      ∀ key document, .ok (key, document) ∈ documents → document.Keyed)
    (building : index.Building)
    (builds : documents.foldlM buildStep index = .ok built) :
    built.Building ∧ built.spec = index.spec ∧
      (∀ key document, index.Covers key document →
        built.Covers key document) ∧
      ∀ entry ∈ documents, ∃ key document,
        entry = .ok (key, document) ∧ built.Covers key document := by
  induction documents generalizing index with
  | nil =>
      obtain rfl := Except.ok.inj builds
      exact ⟨building, rfl, fun _ _ => id, by simp⟩
  | cons entry rest inductionHypothesis =>
      rw [List.foldlM_cons] at builds
      obtain ⟨next, step, builds⟩ := Result.bind_eq_ok.mp builds
      obtain ⟨⟨key, document⟩, isEntry, added⟩ := Result.bind_eq_ok.mp step
      subst isEntry
      simp only at added
      split at added
      · cases added
      · obtain rfl := Except.ok.inj added
        have keyedFirst := keyed key document List.mem_cons_self
        obtain ⟨finished, spec, older, covered⟩ :=
          inductionHypothesis
            (fun key document member =>
              keyed key document (List.mem_cons_of_mem _ member))
            (FieldIndex.building_add building fun _ => keyedFirst _ _) builds
        refine ⟨finished, spec.trans (FieldIndex.add_spec _ _ _ _), ?_, ?_⟩
        · intro other stored isCovered
          exact older other stored (FieldIndex.covers_add isCovered)
        · rw [List.forall_mem_cons]
          exact ⟨⟨key, document, rfl,
            older key document FieldIndex.covers_add_self⟩, covered⟩

/-- What creating an index does. -/
theorem create_spec
    {set changed : IndexSet}
    {spec : IndexSpec}
    {documents : List (Except Thrown (JsString × Document))}
    {result : CreateResult}
    (keyed :
      ∀ key document, .ok (key, document) ∈ documents → document.Keyed)
    (creates : create set spec documents = .ok (changed, result)) :
    (result = .exists ∧ changed = set) ∨
      (result = .created ∧ set.get? spec.name = none ∧
        ∃ index, changed = set.set spec.name index ∧ index.WellFormed ∧
          index.spec = spec ∧
          ∀ entry ∈ documents, ∃ key document,
            entry = .ok (key, document) ∧ index.Covers key document) := by
  unfold create at creates
  cases existing : set.get? spec.name with
  | some index =>
      simp only [existing] at creates
      split_ifs at creates
      obtain ⟨rfl, rfl⟩ := Prod.mk.inj (Except.ok.inj creates)
      exact .inl ⟨rfl, rfl⟩
  | none =>
      simp only [existing] at creates
      split at creates
      · cases creates
      · split_ifs at creates
        obtain ⟨built, builds, same⟩ := Result.bind_eq_ok.mp creates
        obtain ⟨rfl, rfl⟩ := Prod.mk.inj (Except.ok.inj same)
        obtain ⟨building, isSpec, -, covered⟩ :=
          build_spec keyed (FieldIndex.building_create spec) builds
        refine .inr ⟨rfl, rfl, built.finishBulk, rfl,
          FieldIndex.wellFormed_finishBulk building, ?_, ?_⟩
        · rw [FieldIndex.finishBulk_spec, isSpec]
          rfl
        · intro entry member
          obtain ⟨key, document, isEntry, covers⟩ := covered entry member
          exact ⟨key, document, isEntry, FieldIndex.covers_finishBulk covers⟩

end IndexSet

end SinterDb
