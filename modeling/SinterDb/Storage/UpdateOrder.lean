import SinterDb.Lib.Commuting
import SinterDb.Storage.UpdatePaths

namespace SinterDb

open Unicode Commuting

/-!
# The order of instructions

The instructions of an update may be applied in any order.  What differs is
only the order in which fields were created, which the encoding does not show.
-/

/-- Two values that differ in the order of the fields of documents at most. -/
inductive Reordered : DocumentValue → DocumentValue → Prop where
  | refl (value : DocumentValue) : Reordered value value
  | document
      {left right : Document}
      (keys :
        ∀ key,
          Document.get? left key = none ↔ Document.get? right key = none)
      (values :
        ∀ key first second,
          Document.get? left key = some first →
          Document.get? right key = some second →
          Reordered first second) :
      Reordered (.document left) (.document right)

/-- Two documents that differ in the order of fields at most. -/
def SameFields (left right : Document) : Prop :=
  ∀ key,
    Option.Rel Reordered (Document.get? left key) (Document.get? right key)

namespace SameFields

/-- Documents are reordered when their fields are the same. -/
theorem reordered
    {left right : Document}
    (same : SameFields left right) :
    Reordered (.document left) (.document right) := by
  refine .document ?_ ?_
  · intro key
    have related := same key
    generalize Document.get? left key = first at *
    generalize Document.get? right key = second at *
    cases related <;> simp
  · intro key first second isFirst isSecond
    have related := same key
    rw [isFirst, isSecond] at related
    cases related with
    | some related =>
        exact related

/-- The fields of a document are the same as themselves. -/
theorem refl (document : Document) : SameFields document document := by
  intro key
  cases Document.get? document key with
  | none =>
      exact .none
  | some value =>
      exact .some (.refl value)

/-- Documents with equal values for all keys have the same fields. -/
theorem of_eq
    {left right : Document}
    (equal : ∀ key, Document.get? left key = Document.get? right key) :
    SameFields left right := by
  intro key
  rw [equal key]
  exact refl right key

/-- Reordered documents have the same fields. -/
theorem of_reordered
    {left right : Document}
    (same : Reordered (.document left) (.document right)) :
    SameFields left right := by
  cases same with
  | refl =>
      exact refl left
  | document keys values =>
      intro key
      cases isFirst : Document.get? left key with
      | none =>
          rw [(keys key).mp isFirst]
          exact .none
      | some first =>
          cases isSecond : Document.get? right key with
          | none =>
              rw [(keys key).mpr isSecond] at isFirst
              cases isFirst
          | some second =>
              exact .some (values key first second isFirst isSecond)

/-- Assigning reordered values keeps the fields the same. -/
theorem set
    {left right : Document}
    (same : SameFields left right)
    (key : JsString)
    {first second : DocumentValue}
    (reordered : Reordered first second) :
    SameFields (Document.set left key first)
      (Document.set right key second) := by
  intro other
  rw [Document.get?_set, Document.get?_set]
  split_ifs
  · exact .some reordered
  · exact same other

/-- Deleting a field keeps the others the same. -/
theorem erase
    {left right : Document}
    (same : SameFields left right)
    (key : JsString) :
    SameFields (Document.erase left key) (Document.erase right key) := by
  intro other
  rw [Document.get?_erase, Document.get?_erase]
  split_ifs
  · exact .none
  · exact same other

end SameFields

/-- Reordering a reordered value reorders it. -/
theorem Reordered.trans
    {first second third : DocumentValue}
    (left : Reordered first second)
    (right : Reordered second third) :
    Reordered first third := by
  induction left generalizing third with
  | refl =>
      exact right
  | @document left middle keys values inductionHypothesis =>
      cases right with
      | refl =>
          exact .document keys values
      | @document _ right otherKeys otherValues =>
          refine .document (fun key => (keys key).trans (otherKeys key)) ?_
          intro key first third isFirst isThird
          cases isSecond : Document.get? middle key with
          | none =>
              rw [(keys key).mpr isSecond] at isFirst
              cases isFirst
          | some second =>
              exact inductionHypothesis key first second isFirst isSecond
                (otherValues key second third isSecond isThird)

/-- The fields stay the same from document to document. -/
theorem SameFields.trans
    {first second third : Document}
    (left : SameFields first second)
    (right : SameFields second third) :
    SameFields first third :=
  .of_reordered (left.reordered.trans right.reordered)

/-- Reordering can be undone. -/
theorem Reordered.symm
    {left right : DocumentValue}
    (same : Reordered left right) :
    Reordered right left := by
  induction same with
  | refl value =>
      exact .refl value
  | document keys _ inductionHypothesis =>
      refine .document (fun key => (keys key).symm) ?_
      intro key first second isFirst isSecond
      exact inductionHypothesis key second first isSecond isFirst

/-- Having the same fields does not depend on the sides. -/
theorem SameFields.symm
    {left right : Document}
    (same : SameFields left right) :
    SameFields right left :=
  .of_reordered same.reordered.symm

/-- Two documents are equal at a key or have documents there. -/
theorem SameFields.cases
    {left right : Document}
    (same : SameFields left right)
    (key : JsString) :
    Document.get? left key = Document.get? right key ∨
      ∃ first second,
        Document.get? left key = some (.document first) ∧
          Document.get? right key = some (.document second) ∧
          SameFields first second := by
  have related := same key
  generalize Document.get? left key = first at *
  generalize Document.get? right key = second at *
  cases related with
  | none =>
      exact .inl rfl
  | some reordered =>
      cases reordered with
      | refl =>
          exact .inl rfl
      | document keys values =>
          exact .inr ⟨_, _, rfl, rfl, .of_reordered (.document keys values)⟩

/-- A change at a field that two documents agree on has the same outcome. -/
theorem ActsAt.respects
    {key : JsString}
    {act : Document → Except Thrown Document}
    (acts : ActsAt key act)
    {left right : Document}
    (same : SameFields left right)
    (equal : Document.get? left key = Document.get? right key) :
    Agree SameFields (act left) (act right) := by
  have first := acts left
  have second := acts right
  rw [equal] at first
  generalize act (single key (Document.get? right key)) = small at *
  generalize act left = leftOutcome at *
  generalize act right = rightOutcome at *
  cases small <;> cases leftOutcome <;> cases rightOutcome <;>
    first
    | trivial
    | exact first.elim
    | exact second.elim
    | skip
  intro other
  rw [first other, second other]
  split_ifs
  · exact SameFields.refl _ _
  · exact same other

/-- Documents compare to an operand in the same way. -/
theorem compareDocumentValues_document
    (operand : DocumentValue)
    (left right : Document) :
    compareDocumentValues operand (.document left) =
      compareDocumentValues operand (.document right) := by
  cases operand <;> rfl

/-- A comparison with a document at the field respects the order of fields. -/
theorem applyExtremum_respects
    {key : JsString}
    {left right first second : Document}
    (same : SameFields left right)
    (isFirst : Document.get? left key = some (.document first))
    (isSecond : Document.get? right key = some (.document second))
    (operand : DocumentValue)
    (replaces : Ordering) :
    SameFields (applyExtremum left key operand replaces)
      (applyExtremum right key operand replaces) := by
  simp only [applyExtremum, isFirst, isSecond]
  rw [compareDocumentValues_document operand first second]
  split_ifs
  · exact same.set key (.refl operand)
  · exact same

/-- What is done to the parent of a path respects the order of fields. -/
theorem applyToParent_respects
    (instruction : Instruction)
    (key : JsString)
    {left right : Document}
    (same : SameFields left right) :
    Agree SameFields (applyToParent instruction key left)
      (applyToParent instruction key right) := by
  obtain equal | ⟨first, second, isFirst, isSecond, -⟩ := same.cases key
  · exact (applyToParent_actsAt instruction key).respects same equal
  · obtain ⟨operator, path, segments, operand⟩ := instruction
    cases operator with
    | set =>
        exact same.set key (.refl operand)
    | unset =>
        exact same.erase key
    | min =>
        exact applyExtremum_respects same isFirst isSecond operand .lt
    | max =>
        exact applyExtremum_respects same isFirst isSecond operand .gt
    | inc =>
        simp only [applyToParent, applyInc, isFirst, isSecond]
        trivial
    | _ =>
        simp only [applyToParent, getArray, isFirst, isSecond]
        trivial

/-- A change at a path respects the order of fields when its target does. -/
theorem changeParent_respects
    {create : Bool}
    {change : JsString → Document → Except Thrown Document}
    (acts : ∀ key, ActsAt key (change key))
    (respects :
      ∀ key left right, SameFields left right →
        Agree SameFields (change key left) (change key right))
    {walked path : List JsString}
    {left right : Document}
    (same : SameFields left right) :
    Agree SameFields (changeParent create change walked path left)
      (changeParent create change walked path right) := by
  induction path generalizing walked left right with
  | nil =>
      exact same
  | cons segment rest inductionHypothesis =>
      cases rest with
      | nil =>
          exact respects segment left right same
      | cons second rest =>
          obtain equal | ⟨inner, other, isFirst, isSecond, sameInside⟩ :=
            same.cases segment
          · exact
              (changeParent_actsAt acts walked segment (second :: rest)).respects
                same equal
          · simp only [changeParent, isFirst, isSecond]
            refine (inductionHypothesis sameInside).bind ?_
            intro inner other sameAfter
            exact same.set segment sameAfter.reordered

/-- A change keeps the other fields. -/
theorem ActsAt.keeps
    {key : JsString}
    {act : Document → Except Thrown Document}
    (acts : ActsAt key act)
    {document changed : Document}
    (changes : act document = .ok changed)
    {other : JsString}
    (different : other ≠ key) :
    Document.get? changed other = Document.get? document other := by
  have outcome := acts document
  rw [changes] at outcome
  generalize act (single key (Document.get? document key)) = small at *
  cases small with
  | error _ =>
      exact outcome.elim
  | ok small =>
      rw [outcome other, if_neg different]

/-- A change gives equal fields from equal fields. -/
theorem ActsAt.transfer
    {key : JsString}
    {act : Document → Except Thrown Document}
    (acts : ActsAt key act)
    {left right : Document}
    (equal : Document.get? left key = Document.get? right key) :
    Agree
      (fun first second =>
        Document.get? first key = Document.get? second key)
      (act left) (act right) := by
  have first := acts left
  have second := acts right
  rw [equal] at first
  generalize act (single key (Document.get? right key)) = small at *
  generalize act left = leftOutcome at *
  generalize act right = rightOutcome at *
  cases small <;> cases leftOutcome <;> cases rightOutcome <;>
    first
    | trivial
    | exact first.elim
    | exact second.elim
    | exact (first key).trans ((if_pos rfl).trans
        ((if_pos rfl).symm.trans (second key).symm))

/-- Changes at different fields can change places. -/
theorem ActsAt.swap
    {key other : JsString}
    {first second : Document → Except Thrown Document}
    (firstActs : ActsAt key first)
    (secondActs : ActsAt other second)
    (different : key ≠ other)
    (document : Document) :
    Agree SameFields (first document >>= second)
      (second document >>= first) := by
  cases isFirst : first document with
  | error _ =>
      cases isSecond : second document with
      | error _ =>
          trivial
      | ok afterSecond =>
          have again := firstActs.transfer
            (secondActs.keeps isSecond different)
          rw [isFirst] at again
          cases isBoth : first afterSecond with
          | error _ =>
              simp only [bind, Except.bind, isBoth]
              trivial
          | ok both =>
              rw [isBoth] at again
              exact again.elim
  | ok afterFirst =>
      have again := secondActs.transfer
        (firstActs.keeps isFirst different.symm)
      cases isSecond : second document with
      | error _ =>
          rw [isSecond] at again
          cases isBoth : second afterFirst with
          | error _ =>
              simp only [bind, Except.bind, isBoth]
              trivial
          | ok both =>
              rw [isBoth] at again
              exact again.elim
      | ok afterSecond =>
          have alsoAgain := firstActs.transfer
            (secondActs.keeps isSecond different)
          rw [isSecond] at again
          rw [isFirst] at alsoAgain
          cases isBoth : second afterFirst with
          | error _ =>
              rw [isBoth] at again
              exact again.elim
          | ok both =>
              cases isOther : first afterSecond with
              | error _ =>
                  rw [isOther] at alsoAgain
                  exact alsoAgain.elim
              | ok bothOther =>
                  rw [isBoth] at again
                  rw [isOther] at alsoAgain
                  simp only [bind, Except.bind, isBoth, isOther]
                  refine SameFields.of_eq fun field => ?_
                  by_cases isKey : field = key
                  · rw [isKey, secondActs.keeps isBoth different]
                    exact Eq.symm alsoAgain
                  · rw [firstActs.keeps isOther isKey]
                    by_cases isField : field = other
                    · rw [isField]
                      exact again
                    · rw [secondActs.keeps isBoth isField,
                        firstActs.keeps isFirst isKey,
                        secondActs.keeps isSecond isField]

/-- Inside a document that is there or is created, a change goes on. -/
theorem changeParent_inside
    {create : Bool}
    {change : JsString → Document → Except Thrown Document}
    {walked rest : List JsString}
    {segment second : JsString}
    {document before : Document}
    (inside : Inside document segment before)
    (reaches :
      create = true ∨
        Document.get? document segment = some (.document before)) :
    changeParent create change walked (segment :: second :: rest) document =
      (changeParent create change (walked ++ [segment]) (second :: rest)
          before >>=
        fun inner =>
          .ok (Document.set document segment (.document inner))) := by
  rw [changeParent]
  · obtain found | ⟨missing, rfl⟩ := inside
    · rw [found]
      rfl
    · obtain creates | found := reaches
      · rw [missing, if_pos creates]
        rfl
      · rw [missing] at found
        cases found
  · simp

namespace Instruction

/-- An instruction that creates the documents on the way to its target. -/
def creates (instruction : Instruction) : Bool :=
  instruction.operator ≠ .unset && instruction.operator ≠ .pull

/-- What an instruction does inside a document on the way to its target. -/
def runAt
    (instruction : Instruction)
    (walked path : List JsString)
    (document : Document) : Except Thrown Document :=
  changeParent instruction.creates (applyToParent instruction) walked path
    document

/-- An instruction that creates nothing leaves an empty document. -/
theorem runAt_empty
    {instruction : Instruction}
    (createsNothing : instruction.creates = false)
    (walked path : List JsString) :
    instruction.runAt walked path [] = .ok [] := by
  unfold runAt
  match path with
  | [] =>
      rfl
  | [key] =>
      obtain ⟨operator, path, segments, operand⟩ := instruction
      cases operator <;> first | rfl | cases createsNothing
  | segment :: second :: rest =>
      rw [createsNothing]
      rfl

/-- Two instructions go on inside the document that both paths lead to. -/
theorem runAt_twice
    {first second : Instruction}
    {segment left right : JsString}
    {walked otherWalked lefts rights : List JsString}
    {document before : Document}
    (inside : Inside document segment before)
    (reaches :
      first.creates = true ∨
        Document.get? document segment = some (.document before)) :
    Agree SameFields
      (first.runAt walked (segment :: left :: lefts) document >>=
        second.runAt otherWalked (segment :: right :: rights))
      (first.runAt (walked ++ [segment]) (left :: lefts) before >>=
          second.runAt (otherWalked ++ [segment]) (right :: rights) >>=
        fun inner =>
          .ok (Document.set document segment (.document inner))) := by
  unfold runAt
  rw [changeParent_inside inside reaches, bind_assoc, bind_assoc]
  refine Agree.bind_left _ fun inner => ?_
  have isInner :
      Document.get? (Document.set document segment (.document inner))
        segment = some (.document inner) := by
    rw [Document.get?_set, if_pos rfl]
  rw [show (Except.ok (Document.set document segment (.document inner)) >>=
        changeParent second.creates (applyToParent second) otherWalked
          (segment :: right :: rights)) =
      changeParent second.creates (applyToParent second) otherWalked
        (segment :: right :: rights)
        (Document.set document segment (.document inner)) from rfl,
    changeParent_inside (.inl isInner) (.inr isInner)]
  refine Agree.bind_left _ fun after => ?_
  refine SameFields.of_eq fun key => ?_
  simp only [Document.get?_set]
  split_ifs <;> rfl

/-- An instruction that creates nothing stops where there is no document. -/
theorem runAt_stays
    {instruction : Instruction}
    (createsNothing : instruction.creates = false)
    {segment second : JsString}
    {document : Document}
    (noDocument :
      ∀ fields, Document.get? document segment ≠ some (.document fields))
    (walked rest : List JsString) :
    instruction.runAt walked (segment :: second :: rest) document =
      .ok document := by
  unfold runAt
  rw [changeParent, createsNothing]
  · split
    · rfl
    · rename_i fields found
      exact absurd found (noDocument fields)
    · rfl
  · simp

/-- An instruction that creates documents fails at another value. -/
theorem runAt_fails
    {instruction : Instruction}
    (isCreating : instruction.creates = true)
    {segment second : JsString}
    {document : Document}
    {value : DocumentValue}
    (found : Document.get? document segment = some value)
    (noDocument : ∀ fields, value ≠ .document fields)
    (walked rest : List JsString) :
    instruction.runAt walked (segment :: second :: rest) document =
      .error (cannotTraverse (walked ++ [segment])) := by
  unfold runAt
  rw [changeParent, isCreating, found]
  · cases value with
    | document fields =>
        exact absurd rfl (noDocument fields)
    | _ =>
        rfl
  · simp

section

variable
  {first second : Instruction}
  {segment left right : JsString}
  {walked otherWalked lefts rights : List JsString}
  {document : Document}

/-- The places change when both instructions go on inside a document. -/
theorem swap_inside
    {before : Document}
    (swaps :
      Agree SameFields
        (first.runAt (walked ++ [segment]) (left :: lefts) before >>=
          second.runAt (otherWalked ++ [segment]) (right :: rights))
        (second.runAt (otherWalked ++ [segment]) (right :: rights) before >>=
          first.runAt (walked ++ [segment]) (left :: lefts)))
    (inside : Inside document segment before)
    (reaches :
      first.creates = true ∨
        Document.get? document segment = some (.document before))
    (alsoReaches :
      second.creates = true ∨
        Document.get? document segment = some (.document before)) :
    Agree SameFields
      (first.runAt walked (segment :: left :: lefts) document >>=
        second.runAt otherWalked (segment :: right :: rights))
      (second.runAt otherWalked (segment :: right :: rights) document >>=
        first.runAt walked (segment :: left :: lefts)) := by
  refine (runAt_twice inside reaches).trans @SameFields.trans ?_
  refine Agree.trans @SameFields.trans ?_
    ((runAt_twice inside alsoReaches).symm @SameFields.symm)
  refine swaps.bind ?_
  intro inner other same
  exact (SameFields.refl document).set segment same.reordered

/-- The places change when only the first instruction creates a document. -/
theorem swap_created
    (swaps :
      Agree SameFields
        (first.runAt (walked ++ [segment]) (left :: lefts) [] >>=
          second.runAt (otherWalked ++ [segment]) (right :: rights))
        (second.runAt (otherWalked ++ [segment]) (right :: rights) [] >>=
          first.runAt (walked ++ [segment]) (left :: lefts)))
    (missing : Document.get? document segment = none)
    (isCreating : first.creates = true)
    (createsNothing : second.creates = false) :
    Agree SameFields
      (first.runAt walked (segment :: left :: lefts) document >>=
        second.runAt otherWalked (segment :: right :: rights))
      (second.runAt otherWalked (segment :: right :: rights) document >>=
        first.runAt walked (segment :: left :: lefts)) := by
  have inside : Inside document segment [] := .inr ⟨missing, rfl⟩
  rw [runAt_stays createsNothing (by simp [missing])]
  refine (runAt_twice inside (.inl isCreating)).trans
    @SameFields.trans ?_
  rw [runAt_empty createsNothing] at swaps
  have direct :
      first.runAt walked (segment :: left :: lefts) document =
        (first.runAt (walked ++ [segment]) (left :: lefts) [] >>=
          fun inner =>
            .ok (Document.set document segment (.document inner))) :=
    changeParent_inside inside (.inl isCreating)
  change Agree SameFields _
    (first.runAt walked (segment :: left :: lefts) document)
  rw [direct]
  refine Agree.bind swaps ?_
  intro inner other same
  exact (SameFields.refl document).set segment same.reordered

/-- The places change where there is a value that is no document. -/
theorem swap_blocked
    {value : DocumentValue}
    (found : Document.get? document segment = some value)
    (noDocument : ∀ fields, value ≠ .document fields) :
    Agree SameFields
      (first.runAt walked (segment :: left :: lefts) document >>=
        second.runAt otherWalked (segment :: right :: rights))
      (second.runAt otherWalked (segment :: right :: rights) document >>=
        first.runAt walked (segment :: left :: lefts)) := by
  have notDocument :
      ∀ fields, Document.get? document segment ≠ some (.document fields) := by
    intro fields isDocument
    rw [found, Option.some.injEq] at isDocument
    exact noDocument fields isDocument
  have outcome :
      ∀ (instruction : Instruction) walked second rest,
        instruction.runAt walked (segment :: second :: rest) document =
          if instruction.creates then
            .error (cannotTraverse (walked ++ [segment]))
          else
            .ok document := by
    intro instruction walked second rest
    cases isCreating : instruction.creates with
    | true =>
        exact runAt_fails isCreating found noDocument walked rest
    | false =>
        exact runAt_stays isCreating notDocument walked rest
  rw [outcome, outcome]
  cases isFirst : first.creates <;> cases isSecond : second.creates <;>
    simp only [if_true, if_false, bind, Except.bind, outcome, isFirst,
      isSecond, Bool.false_eq_true]
  · exact SameFields.refl document
  all_goals trivial

end

/-- Two instructions with paths that do not overlap can change places. -/
theorem runAt_swap
    (first second : Instruction)
    {lefts rights : List JsString}
    (apart : overlaps lefts rights = false)
    (walked otherWalked : List JsString)
    (document : Document) :
    Agree SameFields
      (first.runAt walked lefts document >>=
        second.runAt otherWalked rights)
      (second.runAt otherWalked rights document >>=
        first.runAt walked lefts) := by
  induction lefts generalizing rights walked otherWalked document with
  | nil =>
      simp [overlaps] at apart
  | cons segment lefts inductionHypothesis =>
      cases rights with
      | nil =>
          simp [overlaps] at apart
      | cons other rights =>
          by_cases same : segment = other
          · subst same
            have apart : overlaps lefts rights = false := by
              simpa [overlaps] using apart
            cases lefts with
            | nil =>
                simp [overlaps] at apart
            | cons left lefts =>
                cases rights with
                | nil =>
                    simp [overlaps] at apart
                | cons right rights =>
                    have swaps :=
                      @inductionHypothesis (right :: rights) apart
                        (walked ++ [segment]) (otherWalked ++ [segment])
                    cases found : Document.get? document segment with
                    | none =>
                        cases isFirst : first.creates with
                        | true =>
                            cases isSecond : second.creates with
                            | true =>
                                exact swap_inside (swaps [])
                                  (.inr ⟨found, rfl⟩) (.inl isFirst)
                                  (.inl isSecond)
                            | false =>
                                exact swap_created (swaps []) found isFirst
                                  isSecond
                        | false =>
                            cases isSecond : second.creates with
                            | true =>
                                exact (swap_created ((swaps []).symm
                                  @SameFields.symm) found isSecond
                                  isFirst).symm @SameFields.symm
                            | false =>
                                rw [runAt_stays isFirst (by simp [found]),
                                  runAt_stays isSecond (by simp [found])]
                                change Agree SameFields
                                  (second.runAt _ _ document)
                                  (first.runAt _ _ document)
                                rw [runAt_stays isFirst (by simp [found]),
                                  runAt_stays isSecond (by simp [found])]
                                exact SameFields.refl document
                    | some value =>
                        cases value with
                        | document before =>
                            exact swap_inside (swaps before) (.inl found)
                              (.inr found) (.inr found)
                        | _ =>
                            exact swap_blocked found (by simp)
          · exact
              ActsAt.swap
                (changeParent_actsAt (applyToParent_actsAt first) walked
                  segment lefts)
                (changeParent_actsAt (applyToParent_actsAt second) otherWalked
                  other rights)
                same document

end Instruction

/-- An instruction respects the order of fields. -/
theorem applyInstruction_respects
    (instruction : Instruction)
    (left right : Document)
    (same : SameFields left right) :
    Agree SameFields (applyInstruction left instruction)
      (applyInstruction right instruction) :=
  changeParent_respects (applyToParent_actsAt instruction)
    (fun key _ _ => applyToParent_respects instruction key) same

/-- Two instructions whose paths do not overlap can change places. -/
theorem applyInstruction_swap
    (first second : Instruction)
    (document : Document)
    (apart : overlaps first.segments second.segments = false) :
    Agree SameFields
      (applyInstruction document first >>= fun next =>
        applyInstruction next second)
      (applyInstruction document second >>= fun next =>
        applyInstruction next first) :=
  Instruction.runAt_swap first second apart [] [] document

end SinterDb
