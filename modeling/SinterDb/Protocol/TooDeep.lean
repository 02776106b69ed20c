import SinterDb.Protocol.Encoder

namespace SinterDb

open Unicode

/-!
# Values that are too deep

A value that could be written but for its depth is refused for its depth: what
comes before the first value that is too deep is appended.
-/

/-- A write of data that would fit ends at a value that is too deep. -/
def TooDeep
    (write : BinaryWriter → Except ProtocolError BinaryWriter)
    (data : Bytes) : Prop :=
  ∀ writer, writer.length + data.length ≤ maxPayloadSize →
    write writer = .error documentTooDeep

namespace TooDeep

variable
  {first second : BinaryWriter → Except ProtocolError BinaryWriter}
  {firstData secondData : Bytes}

/-- The first of two writes ends. -/
theorem atFirst
    (ends : TooDeep first firstData)
    (secondData : Bytes) :
    TooDeep (fun writer => first writer >>= second)
      (firstData ++ secondData) := by
  intro writer fits
  rw [List.length_append] at fits
  change first writer >>= second = _
  rw [ends writer (by omega)]
  rfl

/-- The second of two writes ends. -/
theorem behind
    (appends : Appends first firstData)
    (ends : TooDeep second secondData) :
    TooDeep (fun writer => first writer >>= second)
      (firstData ++ secondData) := by
  intro writer fits
  rw [List.length_append] at fits
  change first writer >>= second = _
  rw [appends writer (by omega), BinaryWriter.write, if_neg (by omega)]
  refine ends (writer ++ firstData) ?_
  rw [List.length_append]
  omega

end TooDeep

/-- Items of which one is too deep. -/
theorem writeItems_tooDeep
    {depth : Nat}
    {items : List DocumentValue}
    (values :
      ∀ item ∈ items,
        Appends (writeValue item depth) item.raw ∨
          TooDeep (writeValue item depth) item.raw)
    (isDeep : ∃ item ∈ items, TooDeep (writeValue item depth) item.raw) :
    TooDeep (writeItems items depth) (DocumentValue.rawItems items) := by
  induction items with
  | nil =>
      rcases isDeep with ⟨item, member, -⟩
      cases member
  | cons item rest inductionHypothesis =>
      rw [List.forall_mem_cons] at values
      rcases values.1 with appends | ends
      · by_cases deepest : TooDeep (writeValue item depth) item.raw
        · exact deepest.atFirst _
        · rcases isDeep with ⟨other, member, ends⟩
          rcases List.mem_cons.mp member with rfl | later
          · exact absurd ends deepest
          · exact .behind appends
              (inductionHypothesis values.2 ⟨other, later, ends⟩)
      · exact ends.atFirst _

/-- Fields of which one is too deep. -/
theorem writeFields_tooDeep
    {depth : Nat}
    {fields : List (JsString × DocumentValue)}
    (values :
      ∀ field ∈ fields,
        Appends (writeValue field.2 depth) field.2.raw ∨
          TooDeep (writeValue field.2 depth) field.2.raw)
    (isDeep :
      ∃ field ∈ fields, TooDeep (writeValue field.2 depth) field.2.raw) :
    TooDeep
      (writeFields depth
        (fields.map fun field =>
          ⟨TextEncoder.encode field.1, writeValue field.2⟩))
      (fields.flatMap fun field =>
        lengthPrefixed (TextEncoder.encode field.1) ++ field.2.raw) := by
  induction fields with
  | nil =>
      rcases isDeep with ⟨field, member, -⟩
      cases member
  | cons field rest inductionHypothesis =>
      rw [List.forall_mem_cons] at values
      rw [List.flatMap_cons, List.append_assoc]
      refine .behind (writeLengthPrefixedBytes_appends _) ?_
      rcases values.1 with appends | ends
      · by_cases deepest : TooDeep (writeValue field.2 depth) field.2.raw
        · exact deepest.atFirst _
        · rcases isDeep with ⟨other, member, ends⟩
          rcases List.mem_cons.mp member with rfl | later
          · exact absurd ends deepest
          · exact .behind appends
              (inductionHypothesis values.2 ⟨other, later, ends⟩)
      · exact ends.atFirst _

/-- A value that has no room for its height ends a write that would fit. -/
theorem writeValue_tooDeep
    {value : DocumentValue}
    (writable : value.Writable)
    {depth : Nat}
    (isDeep : maxDocumentDepth < depth + value.height) :
    TooDeep (writeValue value depth) value.raw := by
  induction value using DocumentValue.induction generalizing depth with
  | array items inductionHypothesis =>
      have inside := (DocumentValue.allNodes_array _ items).mp writable
      by_cases atOnce : maxDocumentDepth < depth
      · intro writer _
        rw [writeValue, if_pos atOnce]
      · intro writer fits
        rw [writeValue, if_neg atOnce]
        have deepItem :
            ∃ item ∈ items, maxDocumentDepth < depth + 1 + item.height := by
          by_contra none
          have bound :
              (DocumentValue.array items).height ≤
                maxDocumentDepth - depth := by
            refine DocumentValue.height_array_le.mpr fun item member => ?_
            by_contra high
            exact none ⟨item, member, by omega⟩
          omega
        rcases deepItem with ⟨deep, deepMember, high⟩
        refine TooDeep.behind (.write [ValueTag.array.code])
          (.behind (.write (BigEndian.encode 4 items.length))
            (writeItems_tooDeep ?_
              ⟨deep, deepMember,
                inductionHypothesis deep deepMember (inside.2 deep deepMember)
                  high⟩)) writer fits
        intro item member
        by_cases isHigh : maxDocumentDepth < depth + 1 + item.height
        · exact .inr
            (inductionHypothesis item member (inside.2 item member) isHigh)
        · exact .inl (writeValue_appends (inside.2 item member) (by omega))
  | document fields inductionHypothesis =>
      have inside := (DocumentValue.allNodes_document _ fields).mp writable
      have wellFormed : ∀ field ∈ fields, isWellFormed field.1 = true := by
        simpa [DocumentValue.isWritable] using inside.1
      by_cases atOnce : maxDocumentDepth < depth
      · intro writer _
        rw [writeValue, if_pos atOnce]
      · intro writer fits
        rw [writeValue, if_neg atOnce]
        have deepField :
            ∃ field ∈ fields,
              maxDocumentDepth < depth + 1 + field.2.height := by
          by_contra none
          have bound :
              (DocumentValue.document fields).height ≤
                maxDocumentDepth - depth := by
            refine DocumentValue.height_document_le.mpr fun field member => ?_
            by_contra high
            exact none ⟨field, member, by omega⟩
          omega
        rcases deepField with ⟨deep, deepMember, high⟩
        have count :
            ((sortFields fields).map fun field =>
              FieldWriter.mk (TextEncoder.encode field.1)
                (writeValue field.2)).length = fields.length := by
          rw [List.length_map, (sortFields_perm fields).length_eq]
        rw [raw_document] at fits
        simp only [fieldWriters_eq wellFormed]
        change (do
          let writer ← BinaryWriter.write writer [ValueTag.document.code]
          let writer ← BinaryWriter.write writer (BigEndian.encode 4 _)
          writeFields (depth + 1) _ writer) = _
        rw [sorted_fieldWriters, count]
        refine TooDeep.behind (.write [ValueTag.document.code])
          (.behind (.write (BigEndian.encode 4 fields.length))
            (writeFields_tooDeep ?_
              ⟨deep, (sortFields_perm fields).mem_iff.mpr deepMember,
                inductionHypothesis deep deepMember (inside.2 deep deepMember)
                  high⟩)) writer fits
        intro field member
        have member := (sortFields_perm fields).mem_iff.mp member
        by_cases isHigh : maxDocumentDepth < depth + 1 + field.2.height
        · exact .inr
            (inductionHypothesis field member (inside.2 field member) isHigh)
        · exact .inl (writeValue_appends (inside.2 field member) (by omega))
  | _ =>
      intro writer _
      have atOnce : maxDocumentDepth < depth := by
        simpa [DocumentValue.height] using isDeep
      rw [writeValue.eq_def, if_pos atOnce]

/-- A value that would fit is refused for its depth. -/
theorem encodeDocumentValue_tooDeep
    {value : DocumentValue}
    (writable : value.Writable)
    (isDeep : maxDocumentDepth < value.height)
    (fits : value.raw.length ≤ maxPayloadSize) :
    encodeDocumentValue value = .error documentTooDeep := by
  have ends :=
    @writeValue_tooDeep value writable 0 (by omega) [] (by simpa using fits)
  unfold encodeDocumentValue
  exact ends

end SinterDb
