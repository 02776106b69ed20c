import SinterDb.Protocol.Restored

namespace SinterDb

open Unicode

/-!
# The encoding is canonical

Two values have the same encoding exactly when they are equal.  No encoding is
a front part of another, so the encodings of items and fields can be told
apart one after the other.
-/

/-- A length and its data can be told apart from what follows. -/
theorem lengthPrefixed_append_inj
    {left right rest other : Bytes}
    (leftSmall : left.length < 2 ^ 32)
    (rightSmall : right.length < 2 ^ 32)
    (same : lengthPrefixed left ++ rest = lengthPrefixed right ++ other) :
    left = right ∧ rest = other := by
  simp only [lengthPrefixed, List.append_assoc] at same
  obtain ⟨lengths, data⟩ := List.append_inj same (by simp)
  have sameLength : left.length = right.length :=
    BigEndian.encode_inj_of_lt (by simpa using leftSmall)
      (by simpa using rightSmall) lengths
  exact List.append_inj data sameLength

namespace DocumentValue

/-- A value that the decoder gives back as it is. -/
def isScalar : DocumentValue → Bool
  | .string _ => false
  | .array _ => false
  | .document _ => false
  | _ => true

/-- A scalar comes back as it is. -/
theorem restore_scalar
    {value : DocumentValue}
    (scalar : value.isScalar = true) :
    value.restore = .ok value := by
  cases value with
  | string _ | array _ | document _ =>
      cases scalar
  | _ =>
      rw [restore] <;> simp

/-- Only a scalar comes back as a scalar. -/
theorem eq_of_restore_scalar
    {value result : DocumentValue}
    (scalar : result.isScalar = true)
    (restores : value.restore = .ok result) :
    value = result := by
  cases value with
  | string text =>
      rw [restore] at restores
      obtain rfl := Except.ok.inj restores
      cases scalar
  | array items =>
      rw [restore] at restores
      obtain ⟨restored, -, same⟩ := Result.bind_eq_ok.mp restores
      obtain rfl := Except.ok.inj same
      cases scalar
  | document fields =>
      rw [restore] at restores
      obtain ⟨restored, -, same⟩ := Result.bind_eq_ok.mp restores
      obtain rfl := Except.ok.inj same
      cases scalar
  | _ =>
      rw [restore_scalar rfl] at restores
      exact Except.ok.inj restores

/-- The encoding of a scalar is told apart from every other one. -/
theorem raw_scalar_append_inj
    {left right : DocumentValue}
    (scalar : left.isScalar = true)
    (leftWritable : left.Writable)
    (rightWritable : right.Writable)
    (leftSmall : left.raw.length < 2 ^ 32)
    (rightSmall : right.raw.length < 2 ^ 32)
    {rest other : Bytes}
    (same : left.raw ++ rest = right.raw ++ other) :
    left = right ∧ rest = other := by
  have leftReads :=
    readValue_raw leftWritable (le_max_left _ right.height) leftSmall rest
  have rightReads :=
    readValue_raw rightWritable (le_max_right left.height _) rightSmall other
  rw [same, rightReads, restore_scalar scalar] at leftReads
  cases restores : right.restore with
  | error error =>
      rw [restores] at leftReads
      cases leftReads
  | ok result =>
      rw [restores] at leftReads
      obtain ⟨rfl, rfl⟩ := Prod.mk.inj (Except.ok.inj leftReads)
      exact ⟨(eq_of_restore_scalar scalar restores).symm, rfl⟩

/-- Lists of items whose encodings agree are equal. -/
theorem rawItems_append_inj
    {left right : List DocumentValue}
    {rest other : Bytes}
    (apart :
      ∀ item ∈ left, ∀ second ∈ right, ∀ rest other,
        item.raw ++ rest = second.raw ++ other →
          item.SameValue second ∧ rest = other)
    (sameLength : left.length = right.length)
    (same : rawItems left ++ rest = rawItems right ++ other) :
    SameItems left right ∧ rest = other := by
  induction left generalizing right with
  | nil =>
      obtain rfl := List.length_eq_zero_iff.mp sameLength.symm
      exact ⟨trivial, same⟩
  | cons item left inductionHypothesis =>
      cases right with
      | nil =>
          cases sameLength
      | cons second right =>
          simp only [rawItems, List.append_assoc] at same
          obtain ⟨first, later⟩ :=
            apart item List.mem_cons_self second List.mem_cons_self _ _ same
          obtain ⟨others, ends⟩ :=
            inductionHypothesis
              (fun item member second inRight =>
                apart item (List.mem_cons_of_mem _ member) second
                  (List.mem_cons_of_mem _ inRight))
              (Nat.succ.inj sameLength) later
          exact ⟨⟨first, others⟩, ends⟩

/-- Lists of fields whose encodings agree have the same keys in the same
order, with equal values. -/
theorem rawFields_append_inj
    {left right : List (JsString × DocumentValue)}
    {rest other : Bytes}
    (apart :
      ∀ field ∈ left, ∀ second ∈ right, ∀ rest other,
        rawField field ++ rest = rawField second ++ other →
          (field.1 = second.1 ∧ field.2.SameValue second.2) ∧ rest = other)
    (sameLength : left.length = right.length)
    (same :
      left.flatMap rawField ++ rest = right.flatMap rawField ++ other) :
    List.Forall₂
        (fun field second =>
          field.1 = second.1 ∧ field.2.SameValue second.2)
        left right ∧
      rest = other := by
  induction left generalizing right with
  | nil =>
      obtain rfl := List.length_eq_zero_iff.mp sameLength.symm
      exact ⟨.nil, same⟩
  | cons field left inductionHypothesis =>
      cases right with
      | nil =>
          cases sameLength
      | cons second right =>
          simp only [List.flatMap_cons, List.append_assoc] at same
          obtain ⟨first, later⟩ :=
            apart field List.mem_cons_self second List.mem_cons_self _ _ same
          obtain ⟨others, ends⟩ :=
            inductionHypothesis
              (fun field member second inRight =>
                apart field (List.mem_cons_of_mem _ member) second
                  (List.mem_cons_of_mem _ inRight))
              (Nat.succ.inj sameLength) later
          exact ⟨.cons first others, ends⟩

/-- Documents whose sorted fields agree are equal. -/
theorem sameValue_of_sorted
    {left right : Document}
    (same :
      List.Forall₂
        (fun field second =>
          field.1 = second.1 ∧ field.2.SameValue second.2)
        (sortFields left) (sortFields right)) :
    (DocumentValue.document left).SameValue (.document right) := by
  have keys :
      (sortFields left).map Prod.fst = (sortFields right).map Prod.fst := by
    rw [← List.forall₂_eq_eq_eq, List.forall₂_map_left_iff,
      List.forall₂_map_right_iff]
    exact same.imp fun _ _ agrees => agrees.1
  refine ⟨?_, ?_⟩
  · have leftKeys := (sortFields_perm left).map Prod.fst
    have rightKeys := (sortFields_perm right).map Prod.fst
    rw [keys] at leftKeys
    exact leftKeys.symm.trans rightKeys
  · rw [sameFields_iff_forall]
    intro field member
    obtain ⟨second, inSorted, sameKey, sameValue⟩ :=
      Lists.exists_of_mem_left same ((sortFields_perm left).mem_iff.mpr member)
    have inRight := (sortFields_perm right).mem_iff.mp inSorted
    refine ⟨second.2, ?_, sameValue⟩
    rw [sameKey]
    exact inRight

/-- Equal scalars are equal values. -/
theorem sameValue_refl_scalar
    {value : DocumentValue}
    (scalar : value.isScalar = true) :
    value.SameValue value := by
  cases value with
  | string _ | array _ | document _ =>
      cases scalar
  | _ =>
      simp [SameValue]

/-- No encoding is a front part of another, and values with the same encoding
are equal. -/
theorem raw_append_inj
    {left right : DocumentValue}
    (leftWritable : left.Writable)
    (rightWritable : right.Writable)
    (leftSmall : left.raw.length < 2 ^ 32)
    (rightSmall : right.raw.length < 2 ^ 32)
    {rest other : Bytes}
    (same : left.raw ++ rest = right.raw ++ other) :
    left.SameValue right ∧ rest = other := by
  induction left using DocumentValue.induction
    generalizing right rest other with
  | string text =>
      cases right with
      | string otherText =>
          have wellFormed : isWellFormed text = true := by
            simpa [Writable, allNodes, isWritable] using leftWritable
          have otherWellFormed : isWellFormed otherText = true := by
            simpa [Writable, allNodes, isWritable] using rightWritable
          simp only [raw, List.cons_append, List.cons.injEq, true_and] at same
          simp only [raw, lengthPrefixed, List.length_cons, List.length_append,
            BigEndian.length_encode] at leftSmall rightSmall
          obtain ⟨texts, ends⟩ :=
            lengthPrefixed_append_inj (by omega) (by omega) same
          exact ⟨congrArg _ (encode_injective wellFormed otherWellFormed texts),
            ends⟩
      | array _ | document _ =>
          simp [raw, ValueTag.code] at same
      | _ =>
          cases (raw_scalar_append_inj rfl rightWritable leftWritable
            rightSmall leftSmall same.symm).1
  | array items inductionHypothesis =>
      cases right with
      | array others =>
          have inside := ((allNodes_array _ items).mp leftWritable).2
          have otherInside := ((allNodes_array _ others).mp rightWritable).2
          have lengths := length_rawItems inside
          have otherLengths := length_rawItems otherInside
          simp only [raw, List.cons_append, List.cons.injEq, true_and,
            List.append_assoc] at same
          simp only [raw, List.length_cons, List.length_append,
            BigEndian.length_encode] at leftSmall rightSmall
          obtain ⟨counts, data⟩ := List.append_inj same (by simp)
          have sameLength :=
            BigEndian.encode_inj_of_lt (by omega) (by omega) counts
          have apart :
              ∀ item ∈ items, ∀ second ∈ others, ∀ rest other,
                item.raw ++ rest = second.raw ++ other →
                  item.SameValue second ∧ rest = other := by
            intro item member second inOthers rest other same
            have := lengths.2 item member
            have := otherLengths.2 second inOthers
            exact inductionHypothesis item member (inside item member)
              (otherInside second inOthers) (by omega) (by omega) same
          exact rawItems_append_inj apart sameLength data
      | string _ | document _ =>
          simp [raw, ValueTag.code] at same
      | _ =>
          cases (raw_scalar_append_inj rfl rightWritable leftWritable
            rightSmall leftSmall same.symm).1
  | document fields inductionHypothesis =>
      cases right with
      | document others =>
          obtain ⟨keysWellFormed, inside⟩ :=
            (allNodes_document _ fields).mp leftWritable
          obtain ⟨otherKeysWellFormed, otherInside⟩ :=
            (allNodes_document _ others).mp rightWritable
          have lengths := length_rawFields (sortFields fields)
          have otherLengths := length_rawFields (sortFields others)
          have count := (sortFields_perm fields).length_eq
          have otherCount := (sortFields_perm others).length_eq
          have fold :
              ∀ fields : Document,
                (fields.flatMap fun field =>
                  lengthPrefixed (TextEncoder.encode field.1) ++
                    field.2.raw) = fields.flatMap rawField := fun _ => rfl
          rw [raw_document, fold] at leftSmall same
          rw [raw_document, fold] at rightSmall same
          simp only [List.cons_append, List.cons.injEq, true_and,
            List.append_assoc] at same
          simp only [List.length_cons, List.length_append,
            BigEndian.length_encode] at leftSmall rightSmall
          obtain ⟨counts, data⟩ := List.append_inj same (by simp)
          have sameLength :=
            BigEndian.encode_inj_of_lt (by omega) (by omega) counts
          have apart :
              ∀ field ∈ sortFields fields, ∀ second ∈ sortFields others,
                ∀ rest other,
                rawField field ++ rest = rawField second ++ other →
                  (field.1 = second.1 ∧ field.2.SameValue second.2) ∧
                    rest = other := by
            intro field member second inOthers rest other same
            have := lengths.2 field member
            have := otherLengths.2 second inOthers
            have inFields := (sortFields_perm fields).mem_iff.mp member
            have inRight := (sortFields_perm others).mem_iff.mp inOthers
            simp only [rawField, List.append_assoc] at same
            obtain ⟨keys, values⟩ :=
              lengthPrefixed_append_inj (by omega) (by omega) same
            obtain ⟨sameValues, ends⟩ :=
              inductionHypothesis field inFields (inside field inFields)
                (otherInside second inRight) (by omega) (by omega) values
            exact ⟨⟨encode_injective
              (List.all_eq_true.mp keysWellFormed field inFields)
              (List.all_eq_true.mp otherKeysWellFormed second inRight) keys,
              sameValues⟩, ends⟩
          obtain ⟨agree, ends⟩ :=
            rawFields_append_inj apart (by omega) data
          exact ⟨sameValue_of_sorted agree, ends⟩
      | string _ | array _ =>
          simp [raw, ValueTag.code] at same
      | _ =>
          cases (raw_scalar_append_inj rfl rightWritable leftWritable
            rightSmall leftSmall same.symm).1
  | _ =>
      obtain ⟨rfl, rfl⟩ :=
        raw_scalar_append_inj rfl leftWritable rightWritable leftSmall
          rightSmall same
      exact ⟨sameValue_refl_scalar rfl, rfl⟩

end DocumentValue

/-- Two values that can be encoded have the same encoding exactly when they are
equal. -/
theorem encode_eq_iff_sameValue
    {left right : DocumentValue}
    (leftDistinct : left.DistinctKeys)
    (rightDistinct : right.DistinctKeys)
    {leftBytes rightBytes : Bytes}
    (leftEncodes : encodeDocumentValue left = .ok leftBytes)
    (rightEncodes : encodeDocumentValue right = .ok rightBytes) :
    leftBytes = rightBytes ↔ left.SameValue right := by
  obtain ⟨leftEncodable, leftFits, rfl⟩ :=
    encodeDocumentValue_ok.mp leftEncodes
  obtain ⟨rightEncodable, rightFits, rfl⟩ :=
    encodeDocumentValue_ok.mp rightEncodes
  unfold maxPayloadSize at leftFits rightFits
  constructor
  · intro same
    exact (DocumentValue.raw_append_inj leftEncodable.1 rightEncodable.1
      (by omega) (by omega) (congrArg (· ++ []) same)).1
  · exact DocumentValue.SameValue.raw_eq leftDistinct rightDistinct
      leftEncodable.1

/-- The order in which the keys were written does not matter. -/
theorem encode_eq_iff_sameValue_reordered :
    ∃ leftBytes rightBytes,
      encodeDocumentValue
          (.document [(utf16 "a", .null), (utf16 "b", .boolean true)]) =
            .ok leftBytes ∧
        encodeDocumentValue
          (.document [(utf16 "b", .boolean true), (utf16 "a", .null)]) =
            .ok rightBytes ∧
        (leftBytes = rightBytes ↔
          (DocumentValue.document
            [(utf16 "a", .null), (utf16 "b", .boolean true)]).SameValue
              (.document [(utf16 "b", .boolean true), (utf16 "a", .null)])) := by
  obtain ⟨leftBytes, leftEncodes⟩ :=
    Result.isOk_iff_exists.mp
      (by decide +kernel :
        (encodeDocumentValue
          (.document [(utf16 "a", .null), (utf16 "b", .boolean true)])).isOk =
            true)
  obtain ⟨rightBytes, rightEncodes⟩ :=
    Result.isOk_iff_exists.mp
      (by decide +kernel :
        (encodeDocumentValue
          (.document [(utf16 "b", .boolean true), (utf16 "a", .null)])).isOk =
            true)
  exact ⟨leftBytes, rightBytes, leftEncodes, rightEncodes,
    encode_eq_iff_sameValue (by decide +kernel) (by decide +kernel)
      leftEncodes rightEncodes⟩

end SinterDb
