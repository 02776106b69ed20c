import SinterDb.Protocol.RoundTrip

namespace SinterDb

open Unicode

/-!
# What decoding leaves of a value

A decoded value can be encoded again: it is no deeper and no longer than the
value it comes from.  Equal values have the same encoding.
-/

namespace DocumentValue

/-- The length of the encoding of an array. -/
theorem length_raw_array
    (items : List DocumentValue) :
    (DocumentValue.array items).raw.length =
      5 + (items.map fun item => item.raw.length).sum := by
  have inside :
      (rawItems items).length =
        (items.map fun item => item.raw.length).sum := by
    induction items with
    | nil =>
        rfl
    | cons item rest inductionHypothesis =>
        simp [rawItems, inductionHypothesis]
  simp only [raw, List.length_cons, List.length_append,
    BigEndian.length_encode, inside]
  omega

/-- The length of the encoding of a document. -/
theorem length_raw_document
    (fields : List (JsString × DocumentValue)) :
    (DocumentValue.document fields).raw.length =
      5 + (fields.map fun field => (rawField field).length).sum := by
  have perm :
      ((sortFields fields).map fun field => (rawField field).length).Perm
        (fields.map fun field => (rawField field).length) :=
    (sortFields_perm fields).map _
  have inside :
      ((sortFields fields).flatMap rawField).length =
        ((sortFields fields).map fun field => (rawField field).length).sum := by
    rw [List.length_flatMap]
  have shape := congrArg List.length (raw_document fields)
  simp only [List.length_cons, List.length_append,
    BigEndian.length_encode] at shape
  rw [shape, ← perm.sum_eq, ← inside]
  unfold rawField
  omega

/-- What is left of a value that the encoder accepts. -/
structure RestoresWithin (result value : DocumentValue) : Prop where
  writable : result.Writable
  height : result.height ≤ value.height
  length : result.raw.length ≤ value.raw.length

/-- A decoded value can be encoded within the limits of its source. -/
theorem restoresWithin
    {value result : DocumentValue}
    (writable : value.Writable)
    (restores : value.restore = .ok result) :
    result.RestoresWithin value := by
  induction value using DocumentValue.induction generalizing result with
  | string value =>
      obtain rfl := Except.ok.inj restores
      have wellFormed : isWellFormed value = true := by
        simpa [Writable, allNodes, isWritable] using writable
      have shorter := length_encode_stripBom value
      refine ⟨?_, Nat.le_refl _, ?_⟩
      · simpa [Writable, allNodes, isWritable] using
          isWellFormed_stripBom wellFormed
      · simp only [raw, lengthPrefixed, List.length_cons, List.length_append,
          BigEndian.length_encode]
        omega
  | array items inductionHypothesis =>
      rw [restore] at restores
      obtain ⟨restored, itemsRestore, same⟩ := Result.bind_eq_ok.mp restores
      obtain rfl := Except.ok.inj same
      have inside := ((allNodes_array _ items).mp writable).2
      have pairs :=
        Lists.forall₂_imp_of_mem (restoreItems_ok.mp itemsRestore)
          fun item member result itemRestores =>
            inductionHypothesis item member (inside item member) itemRestores
      refine ⟨(allNodes_array _ _).mpr ⟨rfl, ?_⟩, ?_, ?_⟩
      · intro item member
        obtain ⟨original, -, within⟩ := Lists.exists_of_mem_right pairs member
        exact within.writable
      · rw [height_array_le]
        intro item member
        obtain ⟨original, inItems, within⟩ :=
          Lists.exists_of_mem_right pairs member
        have bound := height_array_le.mp (Nat.le_refl _) original inItems
        have := within.height
        omega
      · rw [length_raw_array, length_raw_array]
        have shorter := Lists.sum_le_of_forall₂
          (pairs.imp fun _ _ within => within.length)
        omega
  | document fields inductionHypothesis =>
      obtain ⟨built, restored, rfl, distinct, results, reordered⟩ :=
        restore_document_ok restores
      obtain ⟨keys, inside⟩ := (allNodes_document _ fields).mp writable
      have sorted := sortFields_perm fields
      have pairs :
          List.Forall₂
            (fun field result : JsString × DocumentValue =>
              result.1 = stripBom field.1 ∧
                isWellFormed field.1 = true ∧
                result.2.RestoresWithin field.2)
            (sortFields fields) restored :=
        Lists.forall₂_imp_of_mem results
          fun field member result fieldRestores => by
            have inFields := sorted.mem_iff.mp member
            exact ⟨fieldRestores.1,
              List.all_eq_true.mp keys field inFields,
              inductionHypothesis field inFields (inside field inFields)
                fieldRestores.2⟩
      have fromField :
          ∀ field ∈ built, ∃ original ∈ fields,
            field.1 = stripBom original.1 ∧
              isWellFormed original.1 = true ∧
              field.2.RestoresWithin original.2 := by
        intro field member
        obtain ⟨original, inSorted, within⟩ :=
          Lists.exists_of_mem_right pairs (reordered.mem_iff.mp member)
        exact ⟨original, sorted.mem_iff.mp inSorted, within⟩
      refine ⟨(allNodes_document _ _).mpr ⟨?_, ?_⟩, ?_, ?_⟩
      · refine List.all_eq_true.mpr fun field member => ?_
        obtain ⟨original, -, key, wellFormed, -⟩ := fromField field member
        rw [key]
        exact isWellFormed_stripBom wellFormed
      · intro field member
        obtain ⟨original, -, -, -, within⟩ := fromField field member
        exact within.writable
      · rw [height_document_le]
        intro field member
        obtain ⟨original, inFields, -, -, within⟩ := fromField field member
        have bound := height_document_le.mp (Nat.le_refl _) original inFields
        have := within.height
        omega
      · rw [length_raw_document, length_raw_document]
        have shorter :=
          @Lists.sum_le_of_forall₂ _ _
            (fun field => (rawField field).length)
            (fun field => (rawField field).length) _ _
            (pairs.imp fun field result within => by
              have key := length_encode_stripBom field.1
              have value := within.2.2.length
              simp only [rawField, lengthPrefixed, List.length_append,
                BigEndian.length_encode, within.1]
              omega)
        rw [(sorted.map _).sum_eq] at shorter
        rw [(reordered.map _).sum_eq]
        omega
  | _ =>
      simp only [restore, Except.ok.injEq] at restores
      subst restores
      exact ⟨writable, Nat.le_refl _, Nat.le_refl _⟩

/-- The order of encoded keys is the order of their bytes. -/
theorem compareBytes_pos_iff
    (left right : Bytes) :
    0 < compareBytes left right ↔
      right.map UInt8.toNat < left.map UInt8.toNat := by
  induction left generalizing right with
  | nil =>
      simp [compareBytes]
  | cons first rest inductionHypothesis =>
      cases right with
      | nil =>
          simp [compareBytes]
      | cons other others =>
          rw [compareBytes, List.map_cons, List.map_cons,
            List.cons_lt_cons_iff]
          split_ifs with same
          · subst same
            simpa using inductionHypothesis others
          · have different : first.toNat ≠ other.toNat :=
              fun equal => same (UInt8.toNat_inj.mp equal)
            constructor
            · intro above
              exact .inl (by omega)
            · rintro (less | ⟨equal, -⟩)
              · omega
              · exact absurd equal.symm different

/-- The order of encoded keys, the other way round. -/
theorem compareBytes_nonpos_iff
    (left right : Bytes) :
    compareBytes left right ≤ 0 ↔
      ¬ right.map UInt8.toNat < left.map UInt8.toNat := by
  rw [← compareBytes_pos_iff]
  omega

/-- Different keys cannot both come before each other. -/
theorem eq_of_compareBytes
    {left right : Bytes}
    (forward : compareBytes left right ≤ 0)
    (backward : compareBytes right left ≤ 0) :
    left = right := by
  rw [compareBytes_nonpos_iff] at forward backward
  have same := le_antisymm (not_lt.mp forward) (not_lt.mp backward)
  exact List.map_injective_iff.mpr (fun _ _ => UInt8.toNat_inj.mp) same

instance : Std.Total keyPrecedes where
  total left right := by
    unfold keyPrecedes
    rw [compareBytes_nonpos_iff, compareBytes_nonpos_iff]
    simpa using le_total _ _

instance : IsTrans (Bytes × Bytes) keyPrecedes where
  trans left middle right := by
    unfold keyPrecedes
    rw [compareBytes_nonpos_iff, compareBytes_nonpos_iff,
      compareBytes_nonpos_iff]
    simpa using le_trans

/-- The same fields in another order are written in the same order. -/
theorem insertionSort_rawFields_perm
    {left right : List (JsString × DocumentValue)}
    (perm : (rawFields left).Perm (rawFields right))
    (distinct : (left.map Prod.fst).Nodup)
    (wellFormed : ∀ field ∈ left, isWellFormed field.1 = true) :
    (rawFields left).insertionSort keyPrecedes =
      (rawFields right).insertionSort keyPrecedes := by
  have sortLeft := List.perm_insertionSort keyPrecedes (rawFields left)
  have sortRight := List.perm_insertionSort keyPrecedes (rawFields right)
  refine List.Perm.eq_of_pairwise ?_
    (List.pairwise_insertionSort keyPrecedes _)
    (List.pairwise_insertionSort keyPrecedes _)
    (sortLeft.trans (perm.trans sortRight.symm))
  intro first second firstMember secondMember forward backward
  have sameKey := eq_of_compareBytes forward backward
  rw [List.mem_insertionSort] at firstMember secondMember
  rw [← perm.mem_iff] at secondMember
  rw [rawFields_eq, List.mem_map] at firstMember secondMember
  obtain ⟨firstField, inLeft, rfl⟩ := firstMember
  obtain ⟨secondField, alsoInLeft, rfl⟩ := secondMember
  have keys :=
    encode_injective (wellFormed _ inLeft) (wellFormed _ alsoInLeft) sameKey
  rw [List.inj_on_of_nodup_map distinct inLeft alsoInLeft keys]

/-- Documents with the same keys and encodings inside have the same one. -/
theorem raw_document_eq
    {left right : Document}
    (distinct : (left.map Prod.fst).Nodup)
    (keys : (left.map Prod.fst).Perm (right.map Prod.fst))
    (wellFormed : ∀ field ∈ left, isWellFormed field.1 = true)
    (values :
      ∀ field ∈ left, ∃ other,
        (field.1, other) ∈ right ∧ field.2.raw = other.raw) :
    (DocumentValue.document left).raw = (DocumentValue.document right).raw := by
  have perm : (rawFields left).Perm (rawFields right) := by
    rw [rawFields_eq, rawFields_eq]
    refine Lists.perm_map_of_keys _ distinct keys ?_
    intro field member
    obtain ⟨other, inRight, same⟩ := values field member
    exact ⟨other, inRight, by rw [same]⟩
  rw [raw, raw, insertionSort_rawFields_perm perm distinct wellFormed,
    show left.length = right.length by simpa using keys.length_eq]

/-- Equal values have the same encoding. -/
theorem SameValue.raw_eq
    {left right : DocumentValue}
    (leftDistinct : left.DistinctKeys)
    (rightDistinct : right.DistinctKeys)
    (writable : left.Writable)
    (same : left.SameValue right) :
    left.raw = right.raw := by
  induction left using DocumentValue.induction generalizing right with
  | array items inductionHypothesis =>
      cases right with
      | array others =>
          have distinct := ((allNodes_array _ items).mp leftDistinct).2
          have otherDistinct := ((allNodes_array _ others).mp rightDistinct).2
          have inside := ((allNodes_array _ items).mp writable).2
          have equal : items.length = others.length ∧
              rawItems items = rawItems others := by
            clear leftDistinct rightDistinct writable
            simp only [SameValue] at same
            induction items generalizing others with
            | nil =>
                cases others with
                | nil =>
                    exact ⟨rfl, rfl⟩
                | cons other others =>
                    simp [SameItems] at same
            | cons item rest itemsHypothesis =>
                cases others with
                | nil =>
                    simp [SameItems] at same
                | cons other others =>
                    rw [SameItems] at same
                    rw [List.forall_mem_cons] at distinct otherDistinct inside
                    rw [List.forall_mem_cons] at inductionHypothesis
                    have first := inductionHypothesis.1 distinct.1
                      otherDistinct.1 inside.1 same.1
                    have later := itemsHypothesis inductionHypothesis.2 others
                      same.2 distinct.2 otherDistinct.2 inside.2
                    simp [rawItems, first, later.1, later.2]
          rw [raw, raw, equal.1, equal.2]
      | _ =>
          simp [SameValue] at same
  | document fields inductionHypothesis =>
      cases right with
      | document others =>
          obtain ⟨ownDistinct, distinct⟩ :=
            (allNodes_document _ fields).mp leftDistinct
          obtain ⟨otherOwnDistinct, otherDistinct⟩ :=
            (allNodes_document _ others).mp rightDistinct
          obtain ⟨keysWellFormed, inside⟩ :=
            (allNodes_document _ fields).mp writable
          have leftNodup : (fields.map Prod.fst).Nodup := by
            simpa [hasDistinctKeys] using ownDistinct
          simp only [SameValue] at same
          obtain ⟨keys, values⟩ := same
          rw [sameFields_iff_forall] at values
          refine raw_document_eq leftNodup keys
            (List.all_eq_true.mp keysWellFormed) ?_
          intro field member
          obtain ⟨other, inOthers, equal⟩ := values field member
          refine ⟨other, inOthers, ?_⟩
          exact inductionHypothesis field member (distinct field member)
            (otherDistinct _ inOthers) (inside field member) equal
      | _ =>
          simp [SameValue] at same
  | _ =>
      cases right <;> simp_all [SameValue]

end DocumentValue

end SinterDb
