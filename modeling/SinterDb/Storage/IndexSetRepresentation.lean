import SinterDb.Storage.IndexBatch
import SinterDb.Storage.StoredForm

namespace SinterDb

open Unicode

/-!
# What the indexes of a collection hold exactly

Whatever a batch comes to, every index goes through the same steps, and the
undo list holds their inverses.  So all indexes represent the documents after
each run of builds, drops and batches.
-/

/-- What a step of a rollback does to the index of a name. -/
def UndoStep.forIndex (name : JsString) : UndoStep → Option IndexStep
  | .add index key document =>
      if index = name then some (.add key document) else none
  | .remove index key document =>
      if index = name then some (.remove key document) else none

namespace IndexSet

/-- Steps of a rollback, seen from one index. -/
theorem get?_foldl_run
    (steps : List UndoStep)
    (set : IndexSet)
    (name : JsString) :
    (steps.foldl UndoStep.run set).get? name =
      (set.get? name).map fun index =>
        (steps.filterMap (UndoStep.forIndex name)).foldl IndexStep.run
          index := by
  induction steps generalizing set with
  | nil =>
      simp
  | cons step rest inductionHypothesis =>
      rw [List.foldl_cons, inductionHypothesis]
      cases step with
      | add index key document =>
          simp only [UndoStep.run, JsMap.get?_modify, List.filterMap_cons,
            UndoStep.forIndex]
          by_cases same : name = index
          · subst same
            simp [Function.comp_def, IndexStep.run]
          · simp [same, Ne.symm same]
      | remove index key document =>
          simp only [UndoStep.run, JsMap.get?_modify, List.filterMap_cons,
            UndoStep.forIndex]
          by_cases same : name = index
          · subst same
            simp [Function.comp_def, IndexStep.run]
          · simp [same, Ne.symm same]

/-- Steps of a rollback keep the names. -/
theorem keys_rollback
    (undo : List UndoStep)
    (set : IndexSet) :
    (rollback undo set).keys = set.keys := by
  unfold rollback
  induction undo.reverse generalizing set with
  | nil =>
      rfl
  | cons step rest inductionHypothesis =>
      rw [List.foldl_cons, inductionHypothesis]
      cases step <;> exact JsMap.keys_modify _ _ _

/-- An index that is found has a name. -/
theorem mem_keys_of_get?
    {set : IndexSet}
    {name : JsString}
    {index : FieldIndex}
    (found : set.get? name = some index) :
    name ∈ set.keys := by
  rw [← JsMap.has_iff, JsMap.has_eq_isSome, found]
  rfl

/-- A rollback, seen from one index. -/
theorem get?_rollback
    (undo : List UndoStep)
    (set : IndexSet)
    (name : JsString) :
    (rollback undo set).get? name =
      (set.get? name).map fun index =>
        (undo.filterMap (UndoStep.forIndex name)).reverse.foldl
          IndexStep.run index := by
  unfold rollback
  rw [get?_foldl_run, List.filterMap_reverse]

/-- A batch on its way is a list of steps on each index, which its undo list
takes back. -/
structure Tracks
    (set : IndexSet)
    (state : IndexSet × List UndoStep)
    (steps : JsString → List IndexStep) : Prop where
  keys : state.1.keys = set.keys
  index :
    ∀ name, state.1.get? name =
      (set.get? name).map fun index =>
        (steps name).foldl IndexStep.run index
  undo :
    ∀ name ∈ set.keys,
      state.2.filterMap (UndoStep.forIndex name) =
        (steps name).map IndexStep.inverse

/-- A batch starts without steps. -/
theorem tracks_start
    (set : IndexSet) :
    Tracks set (set, []) (fun _ => []) :=
  ⟨rfl, fun name => by simp, fun _ _ => rfl⟩

/-- The steps of the same kind for all names, seen from one of them. -/
theorem filterMap_forIndex
    {names : List JsString}
    (distinct : names.Nodup)
    {name : JsString}
    (member : name ∈ names)
    (key : JsString)
    (document : Document) :
    (names.map fun name => UndoStep.add name key document).filterMap
        (UndoStep.forIndex name) =
      [.add key document] := by
  induction names with
  | nil =>
      cases member
  | cons first rest inductionHypothesis =>
      rw [List.nodup_cons] at distinct
      rw [List.map_cons, List.filterMap_cons]
      rcases List.mem_cons.mp member with rfl | inRest
      · have none :
            (rest.map fun name => UndoStep.add name key document).filterMap
              (UndoStep.forIndex name) = [] := by
          rw [List.filterMap_eq_nil_iff]
          intro step inSteps
          obtain ⟨other, inRest, rfl⟩ := List.mem_map.mp inSteps
          have different : other ≠ name :=
            ne_of_mem_of_not_mem inRest distinct.1
          simp [UndoStep.forIndex, different]
        simp [UndoStep.forIndex, none]
      · have different : first ≠ name := by
          rintro rfl
          exact distinct.1 inRest
        simpa [UndoStep.forIndex, different] using
          inductionHypothesis distinct.2 inRest

/-- Removing one document from every index. -/
theorem tracks_removeBefore
    {set : IndexSet}
    {state : IndexSet × List UndoStep}
    {steps : JsString → List IndexStep}
    (tracks : Tracks set state steps)
    (change : DocumentChange) :
    Tracks set (removeBefore state change)
      (fun name => steps name ++ (removeStep change).toList) := by
  unfold removeBefore removeStep
  cases change.before with
  | none =>
      simpa using tracks
  | some before =>
      refine ⟨?_, ?_, ?_⟩
      · simp only [JsMap.keys_mapValues, tracks.keys]
      · intro name
        simp only [JsMap.get?_mapValues, tracks.index, Option.map_map]
        simp [Function.comp_def, IndexStep.run]
      · intro name member
        have distinct := state.1.nodup_keys
        rw [tracks.keys] at distinct
        simp only [List.filterMap_append, tracks.undo name member,
          tracks.keys, filterMap_forIndex distinct member]
        simp [IndexStep.inverse]

/-- The removals of a batch. -/
theorem tracks_removals
    {set : IndexSet}
    (changes : List DocumentChange)
    {state : IndexSet × List UndoStep}
    {steps : JsString → List IndexStep}
    (tracks : Tracks set state steps) :
    Tracks set (changes.foldl removeBefore state)
      (fun name => steps name ++ changes.filterMap removeStep) := by
  induction changes generalizing state steps with
  | nil =>
      simpa using tracks
  | cons change rest inductionHypothesis =>
      have later := inductionHypothesis (tracks_removeBefore tracks change)
      rw [List.foldl_cons]
      cases isStep : removeStep change with
      | none =>
          simpa [isStep] using later
      | some step =>
          simpa [isStep] using later

/-- One more step on one index. -/
theorem tracks_set
    {set : IndexSet}
    {state : IndexSet × List UndoStep}
    {steps : JsString → List IndexStep}
    (tracks : Tracks set state steps)
    {name key : JsString}
    {after : Document}
    {index : FieldIndex}
    (found : state.1.get? name = some index) :
    Tracks set
      (state.1.set name (index.add key after false),
        state.2 ++ [.remove name key after])
      (Function.update steps name (steps name ++ [.add key after])) := by
  have present := mem_keys_of_get? found
  refine ⟨?_, ?_, ?_⟩
  · rw [← tracks.keys]
    exact JsMap.keys_set_of_mem present _
  · intro other
    simp only [JsMap.get?_set]
    by_cases same : other = name
    · subst same
      have original := tracks.index other
      rw [found] at original
      cases isOriginal : set.get? other with
      | none =>
          rw [isOriginal] at original
          cases original
      | some first =>
          rw [isOriginal] at original
          obtain rfl := Option.some.inj original
          simp [IndexStep.run]
    · rw [if_neg same, Function.update_of_ne same, tracks.index]
  · intro other member
    by_cases same : other = name
    · subst same
      simp [tracks.undo other member, UndoStep.forIndex, IndexStep.inverse]
    · rw [Function.update_of_ne same]
      simp [tracks.undo other member, UndoStep.forIndex, Ne.symm same]

/-- The index of a name when some steps have been taken. -/
def stepped
    (set : IndexSet)
    (steps : JsString → List IndexStep)
    (name : JsString) : Option FieldIndex :=
  (set.get? name).map fun index => (steps name).foldl IndexStep.run index

/-- An index refuses a document. -/
def Refuses
    (index : Option FieldIndex)
    (key : JsString)
    (document : Document)
    (conflict : IndexConflict) : Prop :=
  ∃ found, index = some found ∧
    found.conflictFor key document = some conflict

/-- The addition of one document to some indexes. -/
theorem tracks_addTo
    {set : IndexSet}
    {key : JsString}
    {after : Document}
    {names : List JsString}
    (distinct : names.Nodup)
    {state : IndexSet × List UndoStep}
    {steps : JsString → List IndexStep}
    (tracks : Tracks set state steps) :
    ∃ steps',
      Tracks set (addTo key after names state).1 steps' ∧
        (∀ name, steps' name = steps name ∨
          name ∈ names ∧ steps' name = steps name ++ [.add key after]) ∧
        match (addTo key after names state).2 with
        | none =>
            ∀ name ∈ names, name ∈ set.keys →
              steps' name = steps name ++ [.add key after] ∧
                ∀ conflict,
                  ¬ Refuses (stepped set steps name) key after conflict
        | some conflict =>
            ∃ name ∈ names,
              Refuses (stepped set steps name) key after conflict := by
  induction names generalizing state steps with
  | nil =>
      exact ⟨steps, tracks, fun _ => .inl rfl, by simp [addTo]⟩
  | cons name rest inductionHypothesis =>
      rw [List.nodup_cons] at distinct
      obtain ⟨current, undo⟩ := state
      have isStepped : current.get? name = stepped set steps name :=
        tracks.index name
      unfold addTo
      cases found : current.get? name with
      | none =>
          obtain ⟨steps', tracks', grows, outcome⟩ :=
            inductionHypothesis distinct.2 tracks
          refine ⟨steps', tracks', ?_, ?_⟩
          · intro other
            rcases grows other with same | ⟨inRest, grown⟩
            · exact .inl same
            · exact .inr ⟨List.mem_cons_of_mem _ inRest, grown⟩
          · simp only
            split
            · rename_i isNone
              rw [isNone] at outcome
              rw [List.forall_mem_cons]
              refine ⟨fun inKeys => ?_, outcome⟩
              have absent := JsMap.get?_eq_none.mp found
              rw [show current.keys = set.keys from tracks.keys] at absent
              exact absurd inKeys absent
            · rename_i conflict isConflict
              rw [isConflict] at outcome
              obtain ⟨other, inRest, refuses⟩ := outcome
              exact ⟨other, List.mem_cons_of_mem _ inRest, refuses⟩
      | some index =>
          simp only
          rw [found] at isStepped
          cases conflicts : index.conflictFor key after with
          | some conflict =>
              exact ⟨steps, tracks, fun _ => .inl rfl, name,
                List.mem_cons_self, index, isStepped.symm, conflicts⟩
          | none =>
              obtain ⟨steps', tracks', grows, outcome⟩ :=
                inductionHypothesis distinct.2
                  (@tracks_set set _ steps tracks name key after index found)
              have own :
                  steps' name = steps name ++ [.add key after] := by
                rcases grows name with same | ⟨inRest, -⟩
                · rw [same, Function.update_self]
                · exact absurd inRest distinct.1
              have others :
                  ∀ other ∈ rest,
                    stepped set
                        (Function.update steps name
                          (steps name ++ [.add key after])) other =
                      stepped set steps other := by
                intro other inRest
                unfold stepped
                rw [Function.update_of_ne
                  (ne_of_mem_of_not_mem inRest distinct.1)]
              refine ⟨steps', tracks', ?_, ?_⟩
              · intro other
                by_cases same : other = name
                · rw [same]
                  exact .inr ⟨List.mem_cons_self, own⟩
                · have grown := grows other
                  rw [Function.update_of_ne same] at grown
                  rcases grown with kept | ⟨inRest, grown⟩
                  · exact .inl kept
                  · exact .inr ⟨List.mem_cons_of_mem _ inRest, grown⟩
              · simp only
                split
                · rename_i isNone
                  rw [isNone] at outcome
                  rw [List.forall_mem_cons]
                  refine ⟨fun _ => ⟨own, ?_⟩, ?_⟩
                  · rintro conflict ⟨other, isOther, refuses⟩
                    rw [← isStepped] at isOther
                    obtain rfl := Option.some.inj isOther
                    rw [conflicts] at refuses
                    cases refuses
                  · intro other inRest inKeys
                    obtain ⟨grown, accepts⟩ := outcome other inRest inKeys
                    rw [Function.update_of_ne
                      (ne_of_mem_of_not_mem inRest distinct.1)] at grown
                    refine ⟨grown, fun conflict => ?_⟩
                    rw [← others other inRest]
                    exact accepts conflict
                · rename_i conflict isConflict
                  rw [isConflict] at outcome
                  obtain ⟨other, inRest, refuses⟩ := outcome
                  rw [others other inRest] at refuses
                  exact ⟨other, List.mem_cons_of_mem _ inRest, refuses⟩

/-- Only present indexes refuse documents. -/
theorem mem_keys_of_refuses
    {set : IndexSet}
    {steps : JsString → List IndexStep}
    {name key : JsString}
    {document : Document}
    {conflict : IndexConflict}
    (refuses : Refuses (stepped set steps name) key document conflict) :
    name ∈ set.keys := by
  obtain ⟨index, isIndex, -⟩ := refuses
  by_contra absent
  rw [← JsMap.get?_eq_none] at absent
  unfold stepped at isIndex
  rw [absent] at isIndex
  cases isIndex

/-- What the additions of a batch come to. -/
def Adds
    (set : IndexSet)
    (changes : List DocumentChange)
    (steps steps' : JsString → List IndexStep) :
    Option IndexConflict → Prop
  | none =>
      ∀ name ∈ set.keys,
        steps' name = steps name ++ changes.filterMap addStep ∧
          ∀ front change back after, changes = front ++ change :: back →
            change.after = some after → ∀ conflict,
              ¬ Refuses
                (stepped set
                  (fun name => steps name ++ front.filterMap addStep) name)
                change.key after conflict
  | some conflict =>
      ∃ front change back after name,
        changes = front ++ change :: back ∧ change.after = some after ∧
          Refuses
            (stepped set
              (fun name => steps name ++ front.filterMap addStep) name)
            change.key after conflict

/-- Only the steps of present indexes matter. -/
theorem Tracks.congr
    {set : IndexSet}
    {state : IndexSet × List UndoStep}
    {steps steps' : JsString → List IndexStep}
    (tracks : Tracks set state steps)
    (same : ∀ name ∈ set.keys, steps' name = steps name) :
    Tracks set state steps' := by
  refine ⟨tracks.keys, ?_, ?_⟩
  · intro name
    rw [tracks.index]
    by_cases present : name ∈ set.keys
    · rw [same name present]
    · rw [JsMap.get?_eq_none.mpr present]
      rfl
  · intro name member
    rw [same name member]
    exact tracks.undo name member

/-- The additions of a batch whose first one is accepted. -/
theorem adds_cons
    {set : IndexSet}
    {change : DocumentChange}
    {rest : List DocumentChange}
    {steps steps' : JsString → List IndexStep}
    {result : Option IndexConflict}
    (accepts :
      ∀ name ∈ set.keys, ∀ after, change.after = some after → ∀ conflict,
        ¬ Refuses (stepped set steps name) change.key after conflict)
    (adds :
      Adds set rest (fun name => steps name ++ (addStep change).toList)
        steps' result) :
    Adds set (change :: rest) steps steps' result := by
  have joined :
      ∀ (name : JsString) (changes : List DocumentChange),
        steps name ++ (addStep change).toList ++ changes.filterMap addStep =
          steps name ++ (change :: changes).filterMap addStep := by
    intro name changes
    cases isStep : addStep change <;> simp [isStep]
  have steppedThen :
      ∀ (front : List DocumentChange) (name : JsString),
        stepped set
            (fun name => steps name ++ (addStep change).toList ++
              front.filterMap addStep) name =
          stepped set
            (fun name => steps name ++ (change :: front).filterMap addStep)
            name := by
    intro front name
    unfold stepped
    simp only [joined]
  cases result with
  | none =>
      intro name present
      obtain ⟨grown, accepted⟩ := adds name present
      refine ⟨by rw [grown, joined], ?_⟩
      intro front other back after isSplit isAfter conflict
      cases front with
      | nil =>
          obtain ⟨rfl, rfl⟩ := List.cons.inj isSplit
          simpa [stepped] using accepts name present after isAfter conflict
      | cons first front =>
          obtain ⟨rfl, isRest⟩ := List.cons.inj isSplit
          rw [← steppedThen]
          exact accepted front other back after isRest isAfter conflict
  | some conflict =>
      obtain ⟨front, other, back, after, name, isRest, isAfter, refuses⟩ :=
        adds
      refine ⟨change :: front, other, back, after, name, by rw [isRest]; rfl,
        isAfter, ?_⟩
      rw [← steppedThen]
      exact refuses

/-- The additions of a batch. -/
theorem tracks_addAfter
    {set : IndexSet}
    {changes : List DocumentChange}
    {state : IndexSet × List UndoStep}
    {steps : JsString → List IndexStep}
    (tracks : Tracks set state steps) :
    ∃ steps',
      Tracks set (addAfter changes state).1 steps' ∧
        (∀ name ∈ set.keys, ∃ count,
          steps' name = steps name ++ (changes.take count).filterMap addStep) ∧
        Adds set changes steps steps' (addAfter changes state).2 := by
  induction changes generalizing state steps with
  | nil =>
      refine ⟨steps, tracks, fun name _ => ⟨0, by simp⟩, ?_⟩
      intro name _
      exact ⟨by simp, by simp⟩
  | cons change rest inductionHypothesis =>
      -- What the later additions say, once the first one is through.
      have later :
          ∀ reached,
            Tracks set reached
                (fun name => steps name ++ (addStep change).toList) →
              (∀ name ∈ set.keys, ∀ after, change.after = some after →
                ∀ conflict,
                  ¬ Refuses (stepped set steps name) change.key after
                    conflict) →
              ∃ steps',
                Tracks set (addAfter rest reached).1 steps' ∧
                  (∀ name ∈ set.keys, ∃ count,
                    steps' name =
                      steps name ++
                        ((change :: rest).take count).filterMap addStep) ∧
                  Adds set (change :: rest) steps steps'
                    (addAfter rest reached).2 := by
        intro reached tracksReached accepts
        obtain ⟨steps', tracks', grows, adds⟩ :=
          inductionHypothesis tracksReached
        refine ⟨steps', tracks', ?_, adds_cons accepts adds⟩
        intro name present
        obtain ⟨count, grown⟩ := grows name present
        refine ⟨count + 1, ?_⟩
        rw [grown]
        cases isStep : addStep change <;> simp [isStep]
      unfold addAfter
      cases isAfter : change.after with
      | none =>
          refine later state ?_ ?_
          · simpa [addStep, isAfter] using tracks
          · rintro name - after isSome
            rw [isAfter] at isSome
            cases isSome
      | some after =>
          have distinct := state.1.nodup_keys
          obtain ⟨steps', tracks', grows, outcome⟩ :=
            @tracks_addTo set change.key after _ distinct state steps tracks
          simp only
          split
          · rename_i reached conflict isResult
            rw [isResult] at tracks' outcome
            obtain ⟨name, -, refuses⟩ := outcome
            refine ⟨steps', tracks', ?_, [], change, rest, after, name, rfl,
              isAfter, by simpa [stepped] using refuses⟩
            intro other present
            rcases grows other with same | ⟨-, grown⟩
            · exact ⟨0, by simpa using same⟩
            · exact ⟨1, by simpa [addStep, isAfter] using grown⟩
          · rename_i reached isResult
            rw [isResult] at tracks' outcome
            have accepted := fun name present =>
              outcome name (tracks.keys.symm ▸ present) present
            refine later reached (tracks'.congr ?_) ?_
            · intro name present
              rw [(accepted name present).1]
              simp [addStep, isAfter]
            · intro name present other isOther conflict
              obtain rfl := Option.some.inj (isAfter.symm.trans isOther)
              exact (accepted name present).2 conflict

/-- Every index represents the documents. -/
def Represents (set : IndexSet) (documents : Documents) : Prop :=
  ∀ name index, set.get? name = some index → index.Represents documents

section Apply

variable
  {set changed : IndexSet}
  {documents : Documents}
  {changes : List DocumentChange}

/-- Undoing a batch at any point leads back. -/
theorem represents_rollback
    {state : IndexSet × List UndoStep}
    {steps : JsString → List IndexStep}
    (stored : documents.Stored)
    (represents : Represents set documents)
    (tracks : Tracks set state steps)
    (allowed :
      ∀ name ∈ set.keys, IndexStep.AllAllowed documents (steps name)) :
    Represents (rollback state.2 state.1) documents := by
  intro name index found
  rw [get?_rollback, tracks.index, Option.map_map] at found
  obtain ⟨original, isOriginal, isIndex⟩ := Option.map_eq_some_iff.mp found
  have present := mem_keys_of_get? isOriginal
  subst isIndex
  simp only [Function.comp_apply, tracks.undo name present]
  exact represents_inverse stored (allowed name present)
    (represents_steps stored (allowed name present)
      (represents name original isOriginal))

/-- A batch without indexes does nothing. -/
theorem represents_of_isEmpty
    (empty : set.isEmpty = true)
    (documents : Documents) :
    Represents set documents := by
  intro name index found
  have noKeys : set.keys = [] := by
    simpa [isEmpty, JsMap.size, JsMap.keys] using empty
  have absent : name ∉ set.keys := by simp [noKeys]
  rw [JsMap.get?_eq_none.mpr absent] at found
  cases found

/-- A batch that every index accepts. -/
theorem applyChanges_tracks
    {undo : List UndoStep}
    (notEmpty : set.isEmpty = false)
    (applies : applyChanges set changes = (changed, .ok undo)) :
    Tracks set (changed, undo)
        (fun _ => changes.filterMap removeStep ++
          changes.filterMap addStep) ∧
      ∀ name ∈ set.keys,
        ∀ front change back after, changes = front ++ change :: back →
          change.after = some after → ∀ conflict,
            ¬ Refuses
              (stepped set
                (fun _ => changes.filterMap removeStep ++
                  front.filterMap addStep) name)
              change.key after conflict := by
  unfold applyChanges at applies
  rw [if_neg (by simp [notEmpty])] at applies
  have removed := tracks_removals changes (tracks_start set)
  obtain ⟨steps, tracks, -, adds⟩ := @tracks_addAfter set changes _ _ removed
  simp only [List.nil_append] at adds
  cases result : addAfter changes (changes.foldl removeBefore (set, [])) with
  | mk final conflict =>
      rw [result] at tracks adds
      simp only [result] at applies
      cases conflict with
      | some conflict =>
          cases (Prod.mk.inj applies).2
      | none =>
          obtain ⟨isChanged, isUndo⟩ := Prod.mk.inj applies
          obtain rfl := Except.ok.inj isUndo
          subst isChanged
          exact ⟨tracks.congr fun name present => (adds name present).1.symm,
            fun name present => (adds name present).2⟩

/-- A batch that some index refuses. -/
theorem applyChanges_refused
    {error : Thrown}
    (applies : applyChanges set changes = (changed, .error error)) :
    ∃ final undo steps conflict,
      Tracks set (final, undo) steps ∧
        (∀ name ∈ set.keys, ∃ count,
          steps name =
            changes.filterMap removeStep ++
              (changes.take count).filterMap addStep) ∧
        changed = rollback undo final ∧ error = duplicateKey conflict ∧
        ∃ front change back after name,
          changes = front ++ change :: back ∧ change.after = some after ∧
            Refuses
              (stepped set
                (fun _ => changes.filterMap removeStep ++
                  front.filterMap addStep) name)
              change.key after conflict := by
  have notEmpty : ¬ set.isEmpty = true := by
    intro empty
    unfold applyChanges at applies
    rw [if_pos empty] at applies
    cases (Prod.mk.inj applies).2
  unfold applyChanges at applies
  rw [if_neg notEmpty] at applies
  have removed := tracks_removals changes (tracks_start set)
  obtain ⟨steps, tracks, grows, adds⟩ :=
    @tracks_addAfter set changes _ _ removed
  simp only [List.nil_append] at grows adds
  cases result : addAfter changes (changes.foldl removeBefore (set, [])) with
  | mk final conflict =>
      rw [result] at tracks adds
      simp only [result] at applies
      cases conflict with
      | none =>
          cases (Prod.mk.inj applies).2
      | some conflict =>
          obtain ⟨rfl, isError⟩ := Prod.mk.inj applies
          obtain rfl := Except.error.inj isError
          exact ⟨final.1, final.2, steps, conflict, tracks, grows, rfl, rfl,
            adds⟩

/-- The whole batch makes sense. -/
theorem allAllowed_whole
    (batch : Batch documents changes) :
    IndexStep.AllAllowed documents
      (changes.filterMap removeStep ++ changes.filterMap addStep) := by
  have allowed := allAllowed_batch batch changes.length
  rwa [List.take_length] at allowed

/-- What a batch makes of the indexes when it is accepted. -/
theorem represents_changed
    {undo : List UndoStep}
    (stored : documents.Stored)
    (represents : Represents set documents)
    (batch : Batch documents changes)
    (applies : applyChanges set changes = (changed, .ok undo)) :
    Represents changed (documents.changed changes) := by
  cases empty : set.isEmpty with
  | true =>
      unfold applyChanges at applies
      rw [if_pos empty] at applies
      obtain ⟨rfl, -⟩ := Prod.mk.inj applies
      exact represents_of_isEmpty empty _
  | false =>
      obtain ⟨tracks, -⟩ := applyChanges_tracks empty applies
      intro name index found
      rw [show changed.get? name = _ from tracks.index name] at found
      obtain ⟨original, isOriginal, rfl⟩ := Option.map_eq_some_iff.mp found
      exact (represents_steps stored (allAllowed_whole batch)
        (represents name original isOriginal)).perm (onDocuments_batch batch)

/-- Undoing an accepted batch, whatever happened to the indexes since. -/
theorem represents_undo
    {undo : List UndoStep}
    {other : IndexSet}
    (stored : documents.Stored)
    (batch : Batch documents changes)
    (applies : applyChanges set changes = (changed, .ok undo))
    (keys : other.keys = set.keys)
    (representsOther : Represents other (documents.changed changes)) :
    Represents (rollback undo other) documents := by
  cases empty : set.isEmpty with
  | true =>
      refine represents_of_isEmpty ?_ _
      have noKeys : set.keys = [] := by
        simpa [isEmpty, JsMap.size, JsMap.keys] using empty
      have size : (rollback undo other).keys = [] := by
        rw [keys_rollback, keys, noKeys]
      simpa [isEmpty, JsMap.size, JsMap.keys] using size
  | false =>
      obtain ⟨tracks, -⟩ := applyChanges_tracks empty applies
      intro name index found
      rw [get?_rollback] at found
      obtain ⟨current, isCurrent, rfl⟩ := Option.map_eq_some_iff.mp found
      have present : name ∈ set.keys := by
        rw [← keys]
        exact mem_keys_of_get? isCurrent
      simp only [tracks.undo name present]
      exact represents_inverse stored (allAllowed_whole batch)
        ((representsOther name current isCurrent).perm
          (onDocuments_batch batch).symm)

/-- A batch that is refused leaves what the indexes represent. -/
theorem represents_refused
    {error : Thrown}
    (stored : documents.Stored)
    (represents : Represents set documents)
    (batch : Batch documents changes)
    (applies : applyChanges set changes = (changed, .error error)) :
    Represents changed documents := by
  obtain ⟨final, undo, steps, -, tracks, grows, rfl, -⟩ :=
    applyChanges_refused applies
  refine represents_rollback stored represents tracks ?_
  intro name present
  obtain ⟨count, grown⟩ := grows name present
  rw [grown]
  exact allAllowed_batch batch count

/-- A step keeps the definition of an index. -/
theorem run_spec
    (index : FieldIndex)
    (step : IndexStep) :
    (step.run index).spec = index.spec := by
  cases step with
  | add key document =>
      exact FieldIndex.add_spec _ _ _ _
  | remove key document =>
      exact FieldIndex.remove_spec _ _ _

/-- Steps keep the definition of an index. -/
theorem foldl_run_spec
    (steps : List IndexStep)
    (index : FieldIndex) :
    (steps.foldl IndexStep.run index).spec = index.spec := by
  induction steps generalizing index with
  | nil =>
      rfl
  | cons step rest inductionHypothesis =>
      rw [List.foldl_cons, inductionHypothesis, run_spec]

/-- The same indexes with the same definitions. -/
structure SameDefinitions (set other : IndexSet) : Prop where
  keys : other.keys = set.keys
  spec :
    ∀ name, (other.get? name).map FieldIndex.spec =
      (set.get? name).map FieldIndex.spec

/-- Definitions are the same in two steps. -/
theorem SameDefinitions.trans
    {third : IndexSet}
    (first : SameDefinitions set changed)
    (second : SameDefinitions changed third) :
    SameDefinitions set third :=
  ⟨second.keys.trans first.keys,
    fun name => (second.spec name).trans (first.spec name)⟩

/-- The definitions of a set are those of its names. -/
theorem specs_eq
    (set : IndexSet) :
    specs set =
      set.keys.filterMap fun name => (set.get? name).map FieldIndex.spec := by
  have entries := JsMap.filterMap_get? set fun _ => true
  simp only [List.filter_true] at entries
  unfold specs all
  rw [List.map_map, ← entries, List.map_filterMap]
  simp [Function.comp_def]

/-- The same definitions in the same order. -/
theorem SameDefinitions.specs
    (same : SameDefinitions set changed) :
    IndexSet.specs changed = IndexSet.specs set := by
  simp only [specs_eq, same.keys, same.spec]

/-- Indexes on the way of a batch have the same definitions. -/
theorem Tracks.sameDefinitions
    {state : IndexSet × List UndoStep}
    {steps : JsString → List IndexStep}
    (tracks : Tracks set state steps) :
    SameDefinitions set state.1 := by
  refine ⟨tracks.keys, fun name => ?_⟩
  rw [tracks.index, Option.map_map]
  simp [Function.comp_def, foldl_run_spec]

/-- A rollback keeps the definitions. -/
theorem sameDefinitions_rollback
    (undo : List UndoStep)
    (set : IndexSet) :
    SameDefinitions set (rollback undo set) := by
  refine ⟨keys_rollback undo set, fun name => ?_⟩
  rw [get?_rollback, Option.map_map]
  simp only [Function.comp_def, foldl_run_spec]

/-- A batch keeps the definitions, however it ends. -/
theorem sameDefinitions_applyChanges
    (set : IndexSet)
    (changes : List DocumentChange) :
    SameDefinitions set (applyChanges set changes).1 := by
  cases empty : set.isEmpty with
  | true =>
      unfold applyChanges
      rw [if_pos empty]
      exact ⟨rfl, fun _ => rfl⟩
  | false =>
      cases applies : applyChanges set changes with
      | mk final result =>
          cases result with
          | ok undo =>
              exact (applyChanges_tracks empty applies).1.sameDefinitions
          | error error =>
              obtain ⟨reached, undo, steps, -, tracks, -, rfl, -⟩ :=
                applyChanges_refused applies
              exact tracks.sameDefinitions.trans
                (sameDefinitions_rollback undo reached)

/-- The next document of a build. -/
theorem builtFrom_next
    {rest added : Documents}
    {key : JsString}
    {document : Document}
    {index : FieldIndex}
    (stored : Documents.Stored (added ++ (key, document) :: rest))
    (builtFrom : index.BuiltFrom added) :
    Documents.Stored (((key, document) :: added) ++ rest) ∧
      (index.add key document true).BuiltFrom ((key, document) :: added) := by
  have moved :
      (added ++ (key, document) :: rest).Perm
        (((key, document) :: added) ++ rest) :=
    List.perm_middle
  have storedMoved := stored.perm moved
  have distinct := storedMoved.distinct
  simp only [Documents.keys, List.cons_append, List.map_cons,
    List.nodup_cons, List.map_append, List.mem_append, not_or] at distinct
  have keyed : Documents.Keyed added := fun entry member =>
    stored.keyed entry (List.mem_append_left _ member)
  have ownKeyed : document.Keyed := stored.keyed (key, document) (by simp)
  exact ⟨storedMoved,
    FieldIndex.builtFrom_add builtFrom keyed ownKeyed distinct.1.1⟩

/-- The documents that an index is built from. -/
theorem build_represents
    {order added : Documents}
    {index built : FieldIndex}
    (stored : Documents.Stored (added ++ order))
    (builtFrom : index.BuiltFrom added)
    (builds :
      (order.map Except.ok).foldlM buildStep index = .ok built) :
    built.BuiltFrom (order.reverse ++ added) ∧ built.spec = index.spec := by
  induction order generalizing index added with
  | nil =>
      obtain rfl := Except.ok.inj builds
      exact ⟨builtFrom, rfl⟩
  | cons entry rest inductionHypothesis =>
      obtain ⟨key, document⟩ := entry
      rw [List.map_cons, List.foldlM_cons] at builds
      obtain ⟨next, step, builds⟩ := Result.bind_eq_ok.mp builds
      obtain ⟨⟨firstKey, first⟩, isEntry, adds⟩ := Result.bind_eq_ok.mp step
      obtain ⟨rfl, rfl⟩ := Prod.mk.inj (Except.ok.inj isEntry)
      simp only at adds
      split at adds
      · cases adds
      · obtain rfl := Except.ok.inj adds
        obtain ⟨moved, following⟩ := builtFrom_next stored builtFrom
        obtain ⟨finished, spec⟩ := inductionHypothesis moved following builds
        refine ⟨?_, spec.trans (FieldIndex.add_spec _ _ _ _)⟩
        simpa using finished

/-- A new index represents the documents that it was created over. -/
theorem create_represents
    {spec : IndexSpec}
    {order : Documents}
    {result : CreateResult}
    (stored : documents.Stored)
    (represents : Represents set documents)
    (perm : order.Perm documents)
    (creates :
      create set spec (order.map Except.ok) = .ok (changed, result)) :
    Represents changed documents := by
  unfold create at creates
  cases existing : set.get? spec.name with
  | some index =>
      simp only [existing] at creates
      split_ifs at creates
      obtain ⟨rfl, rfl⟩ := Prod.mk.inj (Except.ok.inj creates)
      exact represents
  | none =>
      simp only [existing] at creates
      split at creates
      · cases creates
      · split_ifs at creates
        obtain ⟨built, builds, same⟩ := Result.bind_eq_ok.mp creates
        obtain ⟨rfl, rfl⟩ := Prod.mk.inj (Except.ok.inj same)
        obtain ⟨builtFrom, -⟩ :=
          @build_represents order [] _ built (stored.perm perm.symm)
            (FieldIndex.builtFrom_create spec) builds
        have reordered : (order.reverse ++ []).Perm documents := by
          rw [List.append_nil]
          exact (List.reverse_perm order).trans perm
        intro name index found
        rw [JsMap.get?_set] at found
        split_ifs at found
        · obtain rfl := Option.some.inj found
          exact (FieldIndex.represents_finishBulk builtFrom).perm reordered
        · exact represents name index found

end Apply

end IndexSet

/-- Batches that were applied one after the other, with all of their undo
steps. -/
inductive Applied : IndexSet → Documents → List UndoStep → IndexSet → Prop where
  | nothing
      {set : IndexSet}
      {documents : Documents} :
      Applied set documents [] set
  | batch
      {set changed final : IndexSet}
      {documents : Documents}
      {changes : List DocumentChange}
      {undo later : List UndoStep}
      (batch : Batch documents changes)
      (applies : set.applyChanges changes = (changed, .ok undo))
      (rest : Applied changed (documents.changed changes) later final) :
      Applied set documents (undo ++ later) final

/-- The indexes and documents that create, drop and batches of changes lead
to; batches are rolled back in the order opposite to the one that they were
applied in. -/
inductive IndexRun : IndexSet → Documents → Prop where
  | start
      {documents : Documents}
      (stored : documents.Stored) :
      IndexRun JsMap.empty documents
  | create
      {set changed : IndexSet}
      {documents order : Documents}
      {spec : IndexSpec}
      {result : IndexSet.CreateResult}
      (run : IndexRun set documents)
      (perm : order.Perm documents)
      (creates :
        set.create spec (order.map Except.ok) = .ok (changed, result)) :
      IndexRun changed documents
  | drop
      {set : IndexSet}
      {documents : Documents}
      (run : IndexRun set documents)
      (name : JsString) :
      IndexRun (set.drop name) documents
  | kept
      {set changed : IndexSet}
      {documents : Documents}
      {changes : List DocumentChange}
      {undo : List UndoStep}
      (run : IndexRun set documents)
      (batch : Batch documents changes)
      (applies : set.applyChanges changes = (changed, .ok undo)) :
      IndexRun changed (documents.changed changes)
  | rolledBack
      {set changed : IndexSet}
      {documents : Documents}
      {undo : List UndoStep}
      (run : IndexRun set documents)
      (applied : Applied set documents undo changed) :
      IndexRun (IndexSet.rollback undo changed) documents
  | refused
      {set changed : IndexSet}
      {documents : Documents}
      {changes : List DocumentChange}
      {error : Thrown}
      (run : IndexRun set documents)
      (batch : Batch documents changes)
      (applies : set.applyChanges changes = (changed, .error error)) :
      IndexRun changed documents

/-- Rolling back batches from the last one on leads back to the documents. -/
theorem Applied.undone
    {set final : IndexSet}
    {documents : Documents}
    {undo : List UndoStep}
    (applied : Applied set documents undo final)
    (stored : documents.Stored)
    (represents : set.Represents documents) :
    (IndexSet.rollback undo final).Represents documents ∧
      (IndexSet.rollback undo final).keys = set.keys := by
  induction applied with
  | nothing =>
      exact ⟨represents, rfl⟩
  | @batch set changed final documents changes undo later batch applies rest
      inductionHypothesis =>
      have definitions := IndexSet.sameDefinitions_applyChanges set changes
      rw [applies] at definitions
      obtain ⟨laterUndone, keys⟩ :=
        inductionHypothesis (stored_changed stored batch)
          (IndexSet.represents_changed stored represents batch applies)
      have inTurn :
          IndexSet.rollback (undo ++ later) final =
            IndexSet.rollback undo (IndexSet.rollback later final) := by
        unfold IndexSet.rollback
        rw [List.reverse_append, List.foldl_append]
      have sameKeys := keys.trans definitions.keys
      rw [inTurn]
      refine ⟨IndexSet.represents_undo stored batch applies sameKeys
        laterUndone, ?_⟩
      rw [IndexSet.keys_rollback, sameKeys]

/-- The documents of a run are stored, and all indexes represent them. -/
theorem IndexRun.represents
    {set : IndexSet}
    {documents : Documents}
    (run : IndexRun set documents) :
    documents.Stored ∧ set.Represents documents := by
  induction run with
  | start stored =>
      exact ⟨stored, IndexSet.represents_of_isEmpty rfl _⟩
  | create run perm creates inductionHypothesis =>
      exact ⟨inductionHypothesis.1,
        IndexSet.create_represents inductionHypothesis.1
          inductionHypothesis.2 perm creates⟩
  | @drop set documents run name inductionHypothesis =>
      refine ⟨inductionHypothesis.1, ?_⟩
      intro other index found
      unfold IndexSet.drop at found
      rw [JsMap.get?_delete] at found
      split_ifs at found
      exact inductionHypothesis.2 other index found
  | kept run batch applies inductionHypothesis =>
      obtain ⟨stored, represents⟩ := inductionHypothesis
      exact ⟨stored_changed stored batch,
        IndexSet.represents_changed stored represents batch applies⟩
  | rolledBack run applied inductionHypothesis =>
      obtain ⟨stored, represents⟩ := inductionHypothesis
      exact ⟨stored, (applied.undone stored represents).1⟩
  | refused run batch applies inductionHypothesis =>
      obtain ⟨stored, represents⟩ := inductionHypothesis
      exact ⟨stored,
        IndexSet.represents_refused stored represents batch applies⟩

namespace FieldIndex

/-- The index that `validate` builds to compare with. -/
def rebuilt (spec : IndexSpec) (documents : Documents) : FieldIndex :=
  finishBulk
    (documents.foldl
      (fun index entry => index.add entry.1 entry.2 true)
      (create spec))

/-- Two indexes hold the same, in whatever order. -/
structure Agrees (index other : FieldIndex) : Prop where
  spec : index.spec = other.spec
  byValue :
    ∀ key, ((index.byValue.get? key).getD []).Perm
      ((other.byValue.get? key).getD [])
  missing : index.missing.Perm other.missing
  ordered :
    ∀ valueClass,
      (index.entriesOf valueClass).Perm (other.entriesOf valueClass)
  arrayValues : index.arrayValues = other.arrayValues
  indexedDocuments : index.indexedDocuments = other.indexedDocuments

/-- The values of a class are listed as often as their entries. -/
theorem Lists.mem_entriesOf
    {index : FieldIndex}
    {documents : Documents}
    (lists : index.Lists documents)
    (valueClass : ValueClass)
    (entry : OrderedEntry) :
    entry ∈ index.entriesOf valueClass ↔
      entry.key = canonicalKey entry.value ∧
        valueClassOf entry.value = some valueClass ∧
          ∃ stored ∈ documents,
            resolveField stored.2 index.segments = some entry.value := by
  constructor
  · intro member
    exact ⟨lists.entryKey valueClass entry member,
      (lists.values valueClass entry.value).mp (List.mem_map_of_mem member)⟩
  · rintro ⟨isKey, held⟩
    obtain ⟨other, member, isValue⟩ :=
      List.mem_map.mp ((lists.values valueClass entry.value).mpr held)
    have otherKey := lists.entryKey valueClass other member
    obtain ⟨value, key⟩ := entry
    obtain ⟨otherValue, otherKey⟩ := other
    simp only at isKey isValue otherKey
    subst isValue isKey otherKey
    exact member

/-- Two indexes of one definition that represent the same documents agree. -/
theorem Represents.agreesWith
    {index other : FieldIndex}
    {documents : Documents}
    (represents : index.Represents documents)
    (otherRepresents : other.Represents documents)
    (sameSpec : index.spec = other.spec) :
    index.Agrees other := by
  have sameSegments : index.segments = other.segments := by
    unfold segments
    rw [sameSpec]
  refine ⟨sameSpec, ?_, ?_, ?_, ?_, ?_⟩
  · intro key
    refine (represents.byValue key).trans ?_
    rw [sameSegments]
    exact (otherRepresents.byValue key).symm
  · refine represents.missing.trans ?_
    rw [sameSegments, sameSpec]
    exact otherRepresents.missing.symm
  · intro valueClass
    have nodup := (represents.distinct valueClass).of_map _
    have otherNodup := (otherRepresents.distinct valueClass).of_map _
    rw [List.perm_ext_iff_of_nodup nodup otherNodup]
    intro entry
    rw [represents.toLists.mem_entriesOf, otherRepresents.toLists.mem_entriesOf,
      sameSegments]
  · rw [represents.arrayValues, otherRepresents.arrayValues, sameSegments]
  · rw [represents.indexedDocuments, otherRepresents.indexedDocuments,
      sameSegments, sameSpec]

/-- What the documents of a build leave. -/
theorem foldl_builtFrom
    {order added : Documents}
    {index : FieldIndex}
    (stored : Documents.Stored (added ++ order))
    (builtFrom : index.BuiltFrom added) :
    (order.foldl (fun index entry => index.add entry.1 entry.2 true)
        index).BuiltFrom (order.reverse ++ added) ∧
      (order.foldl (fun index entry => index.add entry.1 entry.2 true)
        index).spec = index.spec := by
  induction order generalizing index added with
  | nil =>
      exact ⟨builtFrom, rfl⟩
  | cons entry rest inductionHypothesis =>
      obtain ⟨key, document⟩ := entry
      obtain ⟨moved, next⟩ := IndexSet.builtFrom_next stored builtFrom
      obtain ⟨finished, spec⟩ := inductionHypothesis moved next
      refine ⟨?_, spec.trans (add_spec _ _ _ _)⟩
      simpa using finished

/-- A rebuilt index represents the documents. -/
theorem rebuilt_represents
    {documents : Documents}
    (stored : documents.Stored)
    (spec : IndexSpec) :
    (rebuilt spec documents).Represents documents ∧
      (rebuilt spec documents).spec = spec := by
  obtain ⟨builtFrom, sameSpec⟩ :=
    @foldl_builtFrom documents [] _ stored (builtFrom_create spec)
  rw [List.append_nil] at builtFrom
  refine ⟨?_, ?_⟩
  · exact (represents_finishBulk builtFrom).perm (List.reverse_perm documents)
  · unfold rebuilt
    rw [finishBulk_spec, sameSpec]
    rfl

end FieldIndex

/-- Every index of a run represents the documents that are there, and agrees
with one rebuilt from them. -/
theorem IndexRun.agrees
    {set : IndexSet}
    {documents : Documents}
    {name : JsString}
    {index : FieldIndex}
    (run : IndexRun set documents)
    (found : set.get? name = some index) :
    index.Represents documents ∧
      index.Agrees (FieldIndex.rebuilt index.spec documents) := by
  obtain ⟨stored, represents⟩ := run.represents
  obtain ⟨rebuilt, sameSpec⟩ :=
    FieldIndex.rebuilt_represents stored index.spec
  have own := represents name index found
  exact ⟨own, own.agreesWith rebuilt sameSpec.symm⟩

/-- A document with zero or minus zero, which compare equal. -/
def zeroDocument (negative : Bool) : Document :=
  [(utf16 "n", .number (.finite negative 0 0))]

/-- Both zeros. -/
def zeroDocuments : Documents :=
  [(utf16 "a", zeroDocument false), (utf16 "b", zeroDocument true)]

/-- A unique index on the zeros. -/
def zeroIndex : IndexSpec :=
  ⟨utf16 "n_1", utf16 "n", false, true, false⟩

/-- The two documents exchange their zeros. -/
def swapZeros : List DocumentChange :=
  [⟨utf16 "a", some (zeroDocument false), some (zeroDocument true)⟩,
    ⟨utf16 "b", some (zeroDocument true), some (zeroDocument false)⟩]

/-- The zeros have canonical keys. -/
theorem keyed_zeroDocument
    (negative : Bool) :
    (zeroDocument negative).Keyed := by
  have hasKey : (DocumentValue.document (zeroDocument negative)).HasKey := by
    unfold DocumentValue.HasKey
    cases negative <;> decide +kernel
  exact fun _ _ => hasKey_of_resolveField hasKey

/-- The zeros are stored documents. -/
theorem stored_zeroDocuments : zeroDocuments.Stored := by
  refine ⟨by decide, ?_⟩
  intro entry member
  rcases List.mem_cons.mp member with rfl | member
  · exact keyed_zeroDocument false
  · obtain rfl := List.mem_singleton.mp member
    exact keyed_zeroDocument true

/-- The exchange is a batch. -/
theorem batch_swapZeros : Batch zeroDocuments swapZeros := by
  have different : utf16 "a" ≠ utf16 "b" := by decide
  refine ⟨by decide, ?_, ?_⟩
  · intro change member document
    rcases List.mem_cons.mp member with rfl | member
    · simp [zeroDocuments, different, eq_comm]
    · obtain rfl := List.mem_singleton.mp member
      simp [zeroDocuments, different, eq_comm]
  · intro change member after isAfter
    rcases List.mem_cons.mp member with rfl | member
    · obtain rfl := Option.some.inj isAfter
      exact keyed_zeroDocument true
    · obtain rfl := List.mem_singleton.mp member
      obtain rfl := Option.some.inj isAfter
      exact keyed_zeroDocument false

/-- The index over both zeros. -/
def zeroIndexes : IndexSet :=
  match IndexSet.create JsMap.empty zeroIndex
      (zeroDocuments.map Except.ok) with
  | .ok (set, _) => set
  | .error _ => JsMap.empty

/-- A run that builds an index over both zeros and exchanges them. -/
theorem IndexRun.agrees_zeros :
    ∃ set index,
      IndexRun set (zeroDocuments.changed swapZeros) ∧
        set.get? (utf16 "n_1") = some index ∧
        index.Represents (zeroDocuments.changed swapZeros) ∧
        index.Agrees
          (FieldIndex.rebuilt index.spec
            (zeroDocuments.changed swapZeros)) := by
  obtain ⟨⟨created, result⟩, creates⟩ :=
    Result.isOk_iff_exists.mp
      (by decide +kernel :
        (IndexSet.create JsMap.empty zeroIndex
          (zeroDocuments.map Except.ok)).isOk = true)
  have isCreated : zeroIndexes = created := by
    unfold zeroIndexes
    rw [creates]
  subst isCreated
  have before :=
    (IndexRun.start stored_zeroDocuments).create (.refl _) creates
  obtain ⟨undo, isUndo⟩ :=
    Result.isOk_iff_exists.mp
      (by decide +kernel :
        (zeroIndexes.applyChanges swapZeros).2.isOk = true)
  have applies :
      zeroIndexes.applyChanges swapZeros =
        ((zeroIndexes.applyChanges swapZeros).1, .ok undo) := by
    rw [← isUndo]
  have run := before.kept batch_swapZeros applies
  obtain ⟨index, found⟩ :=
    Option.isSome_iff_exists.mp
      (by decide +kernel :
        ((zeroIndexes.applyChanges swapZeros).1.get?
          (utf16 "n_1")).isSome = true)
  exact ⟨_, index, run, found, run.agrees found⟩

end SinterDb
