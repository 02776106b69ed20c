import SinterDb.Protocol.Restored

namespace SinterDb

open Unicode

/-!
# What arrives can be sent again

Whatever bytes the decoder accepts, it reads all of them and at least one for
every value, and the value that it returns is encoded in no more bytes.
-/

/-- The values of `readItems` that are read, whether it throws or not. -/
def itemReads
    (readItem :
      BinaryReader → Except ProtocolError (DocumentValue × BinaryReader))
    (reads : BinaryReader → Nat) :
    Nat → BinaryReader → Nat
  | 0, _ => 0
  | count + 1, reader =>
      reads reader +
        match readItem reader with
        | .ok (_, reader) => itemReads readItem reads count reader
        | .error _ => 0

/-- The values of `readFields` that are read, whether it throws or not. -/
def fieldReads
    (readItem :
      BinaryReader → Except ProtocolError (DocumentValue × BinaryReader))
    (reads : BinaryReader → Nat) :
    Nat → Document → BinaryReader → Nat
  | 0, _, _ => 0
  | count + 1, document, reader =>
      match readString reader with
      | .error _ => 0
      | .ok (key, reader) =>
          if Document.hasOwn document key then
            0
          else
            reads reader +
              match readItem reader with
              | .ok (value, reader) =>
                  fieldReads readItem reads count
                    (Document.define document key value) reader
              | .error _ => 0

/-- How often `readValue` is called, whether it throws or not. -/
def valueReads : Nat → BinaryReader → Nat
  | 0, _ => 1
  | levels + 1, reader =>
      1 +
        match reader.readBytes 1 with
        | .error _ => 0
        | .ok (bytes, reader) =>
            match ValueTag.ofCode? (bytes.headD 0), reader.readUint32 with
            | some .array, .ok (count, reader) =>
                itemReads (readValue levels) (valueReads levels) count reader
            | some .document, .ok (count, reader) =>
                fieldReads (readValue levels) (valueReads levels) count []
                  reader
            | _, _ => 0

/-- What is known of a value that was read. -/
structure Received
    (levels : Nat)
    (reader rest : BinaryReader)
    (value : DocumentValue) : Prop where
  suffix : rest <:+ reader
  writable : value.Writable
  height : value.height < levels
  length : value.raw.length + rest.length ≤ reader.length

/-- The bytes that were read stand in front of the rest. -/
theorem readBytes_ok
    {reader rest bytes : Bytes}
    {length : Nat}
    (reads : BinaryReader.readBytes reader length = .ok (bytes, rest)) :
    reader = bytes ++ rest ∧ bytes.length = length := by
  obtain ⟨enough, same⟩ := Result.else_of_ok reads
  cases same
  refine ⟨(List.take_append_drop length reader).symm, ?_⟩
  rw [List.length_take]
  omega

/-- A signed number that was read, with its bytes. -/
theorem readSigned_ok
    {reader rest : Bytes}
    {width : Nat}
    {value : Int}
    (reads : BinaryReader.readSigned reader width = .ok (value, rest)) :
    ∃ bytes, reader = bytes ++ rest ∧ bytes.length = width ∧
      value = BigEndian.decodeSigned bytes := by
  obtain ⟨⟨bytes, after⟩, taken, same⟩ := Result.bind_eq_ok.mp reads
  cases same
  obtain ⟨front, length⟩ := readBytes_ok taken
  exact ⟨bytes, front, length, rfl⟩

/-- A count that was read takes four bytes. -/
theorem readUint32_ok
    {reader rest : Bytes}
    {count : Nat}
    (reads : BinaryReader.readUint32 reader = .ok (count, rest)) :
    ∃ bytes, reader = bytes ++ rest ∧ bytes.length = 4 := by
  obtain ⟨⟨bytes, after⟩, taken, same⟩ := Result.bind_eq_ok.mp reads
  cases same
  obtain ⟨front, length⟩ := readBytes_ok taken
  exact ⟨bytes, front, length⟩

/-- Bytes that were read with their length. -/
theorem readLengthPrefixedBytes_ok
    {reader rest bytes : Bytes}
    (reads : readLengthPrefixedBytes reader = .ok (bytes, rest)) :
    ∃ front, reader = front ++ rest ∧ front.length = 4 + bytes.length := by
  obtain ⟨⟨length, after⟩, counted, taken⟩ := Result.bind_eq_ok.mp reads
  obtain ⟨header, front, four⟩ := readUint32_ok counted
  obtain ⟨back, -⟩ := readBytes_ok taken
  refine ⟨header ++ bytes, ?_, by simp [four]⟩
  rw [front, back, List.append_assoc]

/-- A text that was read is well formed and needs no more bytes. -/
theorem readString_ok
    {reader rest : Bytes}
    {text : JsString}
    (reads : readString reader = .ok (text, rest)) :
    isWellFormed text = true ∧
      ∃ front, reader = front ++ rest ∧
        4 + (TextEncoder.encode text).length ≤ front.length := by
  obtain ⟨⟨bytes, after⟩, taken, decoded⟩ := Result.bind_eq_ok.mp reads
  obtain ⟨front, split, length⟩ := readLengthPrefixedBytes_ok taken
  dsimp only at decoded
  split at decoded
  · next found =>
      cases decoded
      refine ⟨isWellFormed_decode found, front, split, ?_⟩
      have := length_encode_of_decode found
      omega
  · cases decoded

/-- A number is written in at most nine bytes. -/
theorem length_rawNumber_le (value : JsNumber) :
    (rawNumber value).length ≤ 9 := by
  unfold rawNumber
  split
  · simp
  · dsimp only
    split
    · split_ifs <;> simp
    · simp

/-- A number of 32 bits is written in five bytes. -/
theorem length_rawNumber_int32
    {value : Int}
    (lower : -0x80000000 ≤ value)
    (upper : value ≤ 0x7fffffff) :
    (rawNumber (JsNumber.ofInt value)).length = 5 := by
  obtain ⟨integral, signed⟩ := JsNumber.toInt_ofInt
    (show value.natAbs < 2 ^ 53 by omega)
  have number : (JsNumber.ofInt value).isNaN = false := by
    cases shape : JsNumber.ofInt value with
    | nan =>
        rw [shape] at integral
        cases integral
    | infinity negative =>
        rfl
    | finite negative exponent fraction =>
        rfl
  unfold rawNumber
  simp [number, signed, integral, lower, upper]

/-- A value without values inside it. -/
theorem Received.scalar
    {levels : Nat}
    {front rest : Bytes}
    {tag : UInt8}
    {value : DocumentValue}
    (writable : value.Writable)
    (flat : value.height = 0)
    (length : value.raw.length ≤ 1 + front.length) :
    Received (levels + 1) (tag :: (front ++ rest)) rest value where
  suffix := ⟨tag :: front, by simp⟩
  writable := writable
  height := by omega
  length := by
    simp only [List.length_cons, List.length_append]
    omega

section

variable {levels : Nat}
variable {readItem :
  BinaryReader → Except ProtocolError (DocumentValue × BinaryReader)}

/-- The items that were read, together. -/
theorem readItems_received
    (each :
      ∀ {reader rest value}, readItem reader = .ok (value, rest) →
        Received levels reader rest value)
    {count : Nat}
    {reader rest : Bytes}
    {items : List DocumentValue}
    (reads : readItems readItem count reader = .ok (items, rest)) :
    rest <:+ reader ∧
      (∀ item ∈ items, item.Writable ∧ item.height < levels) ∧
      (items.map fun item => item.raw.length).sum + rest.length ≤
        reader.length := by
  induction count generalizing reader items with
  | zero =>
      cases reads
      exact ⟨List.suffix_refl _, by simp, by simp⟩
  | succ count ih =>
      obtain ⟨⟨item, middle⟩, first, later⟩ := Result.bind_eq_ok.mp reads
      obtain ⟨⟨others, after⟩, remaining, same⟩ := Result.bind_eq_ok.mp later
      cases same
      have head := each first
      obtain ⟨suffix, known, length⟩ := ih remaining
      refine ⟨suffix.trans head.suffix, ?_, ?_⟩
      · rw [List.forall_mem_cons]
        exact ⟨⟨head.writable, head.height⟩, known⟩
      · have := head.length
        simp only [List.map_cons, List.sum_cons]
        omega

/-- What is known of the fields of a document that is read. -/
def FieldsKnown (levels : Nat) (document : Document) : Prop :=
  ∀ field ∈ document,
    isWellFormed field.1 = true ∧ field.2.Writable ∧ field.2.height < levels

/-- The bytes of the fields of a document. -/
def fieldsLength (document : Document) : Nat :=
  (document.map fun field => (rawField field).length).sum

/-- The fields that were read, together with those before them. -/
theorem readFields_received
    (each :
      ∀ {reader rest value}, readItem reader = .ok (value, rest) →
        Received levels reader rest value)
    {count : Nat}
    {document result : Document}
    {reader rest : Bytes}
    (known : FieldsKnown levels document)
    (reads : readFields readItem count document reader = .ok (result, rest)) :
    rest <:+ reader ∧ FieldsKnown levels result ∧
      fieldsLength result + rest.length ≤
        fieldsLength document + reader.length := by
  induction count generalizing document reader with
  | zero =>
      cases reads
      exact ⟨List.suffix_refl _, known, Nat.le_refl _⟩
  | succ count ih =>
      obtain ⟨⟨key, middle⟩, named, later⟩ := Result.bind_eq_ok.mp reads
      obtain ⟨wellFormed, front, split, keyLength⟩ := readString_ok named
      obtain ⟨-, later⟩ := Result.else_of_ok later
      obtain ⟨⟨value, after⟩, valued, remaining⟩ := Result.bind_eq_ok.mp later
      have first := each valued
      have added := define_perm document key value
      have knownAfter : FieldsKnown levels
          (Document.define document key value) := by
        intro field member
        rcases List.mem_append.mp (added.mem_iff.mp member) with old | new
        · exact known field old
        · cases List.mem_singleton.mp new
          exact ⟨wellFormed, first.writable, first.height⟩
      have lengthAfter :
          fieldsLength (Document.define document key value) =
            fieldsLength document +
              (rawField (key, value)).length := by
        unfold fieldsLength
        rw [(added.map _).sum_eq]
        simp
      obtain ⟨suffix, knownResult, length⟩ := ih knownAfter remaining
      refine ⟨suffix.trans (first.suffix.trans ⟨front, split.symm⟩),
        knownResult, ?_⟩
      have fieldLength :
          (rawField (key, value)).length =
            4 + (TextEncoder.encode key).length + value.raw.length := by
        simp [rawField, lengthPrefixed, Nat.add_assoc]
      have readerLength := congrArg List.length split
      rw [List.length_append] at readerLength
      have := first.length
      omega

end

/-- A number is accepted by the encoder. -/
theorem Received.number
    {levels : Nat}
    {front rest : Bytes}
    {tag : UInt8}
    {value : JsNumber}
    (length : (rawNumber value).length ≤ 1 + front.length) :
    Received (levels + 1) (tag :: (front ++ rest)) rest (.number value) :=
  .scalar rfl rfl (by simpa only [DocumentValue.raw] using length)

/-- An array whose items were read. -/
theorem Received.array
    {levels : Nat}
    {header middle rest : Bytes}
    {tag : UInt8}
    {items : List DocumentValue}
    (four : header.length = 4)
    (suffix : rest <:+ middle)
    (known : ∀ item ∈ items, item.Writable ∧ item.height < levels)
    (length :
      (items.map fun item => item.raw.length).sum + rest.length ≤
        middle.length) :
    Received (levels + 1) (tag :: (header ++ middle)) rest (.array items) where
  suffix :=
    suffix.trans ((List.suffix_append header middle).trans
      (List.suffix_cons tag _))
  writable :=
    (DocumentValue.allNodes_array _ items).mpr
      ⟨rfl, fun item member => (known item member).1⟩
  height := by
    have bound : (DocumentValue.array items).height ≤ levels :=
      DocumentValue.height_array_le.mpr fun item member =>
        (known item member).2
    omega
  length := by
    rw [DocumentValue.length_raw_array]
    simp only [List.length_cons, List.length_append, four]
    omega

/-- A document whose fields were read. -/
theorem Received.document
    {levels : Nat}
    {header middle rest : Bytes}
    {tag : UInt8}
    {fields : Document}
    (four : header.length = 4)
    (suffix : rest <:+ middle)
    (known : FieldsKnown levels fields)
    (length : fieldsLength fields + rest.length ≤ middle.length) :
    Received (levels + 1) (tag :: (header ++ middle)) rest
      (.document fields) where
  suffix :=
    suffix.trans ((List.suffix_append header middle).trans
      (List.suffix_cons tag _))
  writable :=
    (DocumentValue.allNodes_document _ fields).mpr
      ⟨List.all_eq_true.mpr fun field member => (known field member).1,
        fun field member => (known field member).2.1⟩
  height := by
    have bound : (DocumentValue.document fields).height ≤ levels :=
      DocumentValue.height_document_le.mpr fun field member =>
        (known field member).2.2
    omega
  length := by
    rw [DocumentValue.length_raw_document, ← fieldsLength]
    simp only [List.length_cons, List.length_append, four]
    omega

/-- The value that was read. -/
theorem readValue_received
    {levels : Nat}
    {reader rest : Bytes}
    {value : DocumentValue}
    (reads : readValue levels reader = .ok (value, rest)) :
    Received levels reader rest value := by
  induction levels generalizing reader rest value with
  | zero =>
      cases reads
  | succ levels ih =>
      obtain ⟨⟨bytes, after⟩, tagged, chosen⟩ := Result.bind_eq_ok.mp reads
      obtain ⟨front, one⟩ := readBytes_ok tagged
      obtain ⟨tag, rfl⟩ := List.length_eq_one_iff.mp one
      subst front
      rw [List.singleton_append]
      dsimp only at chosen
      split at chosen
      · cases chosen
        exact @Received.scalar _ [] _ _ _ rfl rfl (by simp [DocumentValue.raw])
      · cases chosen
        exact @Received.scalar _ [] _ _ _ rfl rfl (by simp [DocumentValue.raw])
      · cases chosen
        exact @Received.scalar _ [] _ _ _ rfl rfl (by simp [DocumentValue.raw])
      · obtain ⟨⟨number, remaining⟩, taken, same⟩ := Result.bind_eq_ok.mp chosen
        cases same
        obtain ⟨body, rfl, four, rfl⟩ := readSigned_ok taken
        have bounds := BigEndian.decodeSigned_bounds body
        rw [four] at bounds
        have five := @length_rawNumber_int32 (BigEndian.decodeSigned body)
          (by omega) (by omega)
        refine .number ?_
        dsimp only
        omega
      · obtain ⟨⟨number, remaining⟩, taken, same⟩ := Result.bind_eq_ok.mp chosen
        cases same
        obtain ⟨⟨integer, later⟩, signed, checked⟩ :=
          Result.bind_eq_ok.mp taken
        obtain ⟨-, same⟩ := Result.else_of_ok checked
        obtain ⟨-, rfl⟩ := Prod.mk.inj (Except.ok.inj same)
        obtain ⟨body, rfl, eight, -⟩ := readSigned_ok signed
        have nine := length_rawNumber_le number
        refine .number ?_
        dsimp only
        omega
      · obtain ⟨⟨body, remaining⟩, taken, same⟩ := Result.bind_eq_ok.mp chosen
        cases same
        obtain ⟨rfl, eight⟩ := readBytes_ok taken
        have nine := length_rawNumber_le
          (JsNumber.ofBits (BigEndian.decode body))
        refine .number ?_
        dsimp only
        omega
      · obtain ⟨⟨integer, remaining⟩, taken, same⟩ := Result.bind_eq_ok.mp chosen
        cases same
        obtain ⟨body, rfl, eight, rfl⟩ := readSigned_ok taken
        have bounds := BigEndian.decodeSigned_bounds body
        rw [eight] at bounds
        refine .scalar ?_ rfl (by simp [DocumentValue.raw, eight])
        simp only [DocumentValue.Writable, DocumentValue.allNodes,
          DocumentValue.isWritable, decide_eq_true_eq]
        omega
      · obtain ⟨⟨text, remaining⟩, taken, same⟩ := Result.bind_eq_ok.mp chosen
        cases same
        obtain ⟨wellFormed, body, rfl, length⟩ := readString_ok taken
        refine .scalar ?_ rfl ?_
        · simpa [DocumentValue.Writable, DocumentValue.allNodes,
            DocumentValue.isWritable] using wellFormed
        · simp only [DocumentValue.raw, lengthPrefixed, List.length_cons,
            List.length_append, BigEndian.length_encode]
          omega
      · obtain ⟨⟨data, remaining⟩, taken, same⟩ := Result.bind_eq_ok.mp chosen
        cases same
        obtain ⟨body, rfl, length⟩ := readLengthPrefixedBytes_ok taken
        refine .scalar rfl rfl ?_
        simp only [DocumentValue.raw, lengthPrefixed, List.length_cons,
          List.length_append, BigEndian.length_encode]
        omega
      · obtain ⟨⟨time, remaining⟩, taken, same⟩ := Result.bind_eq_ok.mp chosen
        cases same
        obtain ⟨⟨milliseconds, remaining⟩, signed, clipped⟩ :=
          Result.bind_eq_ok.mp taken
        obtain ⟨body, rfl, eight, rfl⟩ := readSigned_ok signed
        dsimp only at clipped
        split at clipped
        · cases clipped
          exact .scalar rfl rfl (by simp [DocumentValue.raw, eight])
        · cases clipped
      · obtain ⟨⟨body, remaining⟩, taken, same⟩ := Result.bind_eq_ok.mp chosen
        obtain ⟨rfl, sixteen⟩ := readBytes_ok taken
        dsimp only at same
        split at same
        · cases same
          exact .scalar rfl rfl (by simp [DocumentValue.raw, sixteen])
        · next wrong =>
            exact absurd sixteen wrong
      · obtain ⟨⟨count, middle⟩, counted, inner⟩ := Result.bind_eq_ok.mp chosen
        obtain ⟨⟨items, remaining⟩, taken, same⟩ := Result.bind_eq_ok.mp inner
        cases same
        obtain ⟨header, rfl, four⟩ := readUint32_ok counted
        obtain ⟨suffix, known, length⟩ := readItems_received ih taken
        exact .array four suffix known length
      · obtain ⟨⟨count, middle⟩, counted, inner⟩ := Result.bind_eq_ok.mp chosen
        obtain ⟨⟨fields, remaining⟩, taken, same⟩ := Result.bind_eq_ok.mp inner
        cases same
        obtain ⟨header, rfl, four⟩ := readUint32_ok counted
        have none : FieldsKnown levels [] := by
          intro field member
          cases member
        obtain ⟨suffix, known, length⟩ := readFields_received ih none taken
        exact .document four suffix known (by simpa [fieldsLength] using length)
      · cases chosen

/-- What is known of the number of values that are read. -/
structure ReadsWithin
    {Value : Type}
    (reader : BinaryReader)
    (reads : Nat)
    (result : Except ProtocolError (Value × BinaryReader)) : Prop where
  always : reads ≤ reader.length + 1
  returned :
    ∀ value rest, result = .ok (value, rest) →
      reads + rest.length ≤ reader.length

section

variable {readItem :
  BinaryReader → Except ProtocolError (DocumentValue × BinaryReader)}
variable {reads : BinaryReader → Nat}

/-- The items that are read, whether the last one is an error or not. -/
theorem itemReads_within
    (each : ∀ reader, ReadsWithin reader (reads reader) (readItem reader))
    (count : Nat)
    (reader : BinaryReader) :
    ReadsWithin reader (itemReads readItem reads count reader)
      (readItems readItem count reader) := by
  induction count generalizing reader with
  | zero =>
      refine ⟨Nat.zero_le _, ?_⟩
      intro items rest same
      cases same
      simp [itemReads]
  | succ count ih =>
      have first := each reader
      cases read : readItem reader with
      | error error =>
          refine ⟨?_, ?_⟩
          · simpa [itemReads, read] using first.always
          · intro items rest same
            simp [readItems, read] at same
      | ok result =>
          obtain ⟨item, middle⟩ := result
          have one := first.returned item middle read
          have later := ih middle
          refine ⟨?_, ?_⟩
          · have := later.always
            simp only [itemReads, read]
            omega
          · intro items rest same
            simp only [readItems, read, Result.ok_bind] at same
            obtain ⟨⟨others, after⟩, remaining, same⟩ :=
              Result.bind_eq_ok.mp same
            cases same
            have := later.returned others _ remaining
            simp only [itemReads, read]
            omega

/-- The fields that are read, whether the last one is an error or not. -/
theorem fieldReads_within
    (each : ∀ reader, ReadsWithin reader (reads reader) (readItem reader))
    (count : Nat)
    (document : Document)
    (reader : BinaryReader) :
    ReadsWithin reader (fieldReads readItem reads count document reader)
      (readFields readItem count document reader) := by
  induction count generalizing document reader with
  | zero =>
      refine ⟨Nat.zero_le _, ?_⟩
      intro fields rest same
      cases same
      simp [fieldReads]
  | succ count ih =>
      cases named : readString reader with
      | error error =>
          refine ⟨by simp [fieldReads, named], ?_⟩
          intro fields rest same
          simp [readFields, named] at same
      | ok result =>
          obtain ⟨key, middle⟩ := result
          obtain ⟨-, front, split, -⟩ := readString_ok named
          have shorter : middle.length ≤ reader.length := by
            rw [split, List.length_append]
            omega
          by_cases repeated : Document.hasOwn document key = true
          · refine ⟨by simp [fieldReads, named, repeated], ?_⟩
            intro fields rest same
            simp only [readFields, named, Result.ok_bind] at same
            exact absurd repeated (Result.else_of_ok same).1
          · have first := each middle
            cases read : readItem middle with
            | error error =>
                refine ⟨?_, ?_⟩
                · have := first.always
                  simp only [fieldReads, named, repeated, read]
                  simp only [Bool.false_eq_true, if_false]
                  omega
                · intro fields rest same
                  simp only [readFields, named, Result.ok_bind] at same
                  obtain ⟨-, same⟩ := Result.else_of_ok same
                  simp [read] at same
            | ok result =>
                obtain ⟨value, after⟩ := result
                have one := first.returned value after read
                have later := ih (Document.define document key value) after
                refine ⟨?_, ?_⟩
                · have := later.always
                  simp only [fieldReads, named, repeated, read]
                  simp only [Bool.false_eq_true, if_false]
                  omega
                · intro fields rest same
                  simp only [readFields, named, Result.ok_bind] at same
                  obtain ⟨-, same⟩ := Result.else_of_ok same
                  simp only [read, Result.ok_bind] at same
                  have := later.returned fields rest same
                  simp only [fieldReads, named, repeated, read]
                  simp only [Bool.false_eq_true, if_false]
                  omega

end

/-- At least one byte is consumed for every value that is read. -/
theorem valueReads_within
    (levels : Nat)
    (reader : BinaryReader) :
    ReadsWithin reader (valueReads levels reader)
      (readValue levels reader) := by
  induction levels generalizing reader with
  | zero =>
      refine ⟨by simp [valueReads], ?_⟩
      intro value rest same
      cases same
  | succ levels ih =>
      cases tagged : BinaryReader.readBytes reader 1 with
      | error error =>
          refine ⟨by simp [valueReads, tagged], ?_⟩
          intro value rest same
          simp [readValue, tagged] at same
      | ok result =>
          obtain ⟨bytes, after⟩ := result
          obtain ⟨front, one⟩ := readBytes_ok tagged
          have length : reader.length = 1 + after.length := by
            rw [front, List.length_append, one]
          -- Without values inside, the value takes its own tag.
          have alone :
              valueReads (levels + 1) reader = 1 →
                ReadsWithin reader (valueReads (levels + 1) reader)
                  (readValue (levels + 1) reader) := by
            intro single
            rw [single]
            refine ⟨by omega, ?_⟩
            intro value rest same
            have received := readValue_received same
            have := raw_pos received.writable
            have := received.length
            omega
          cases chosen : ValueTag.ofCode? (bytes.headD 0) with
          | none =>
              exact alone (by simp only [valueReads, tagged, chosen])
          | some tag =>
              cases counted : BinaryReader.readUint32 after with
              | error error =>
                  exact alone
                    (by simp only [valueReads, tagged, chosen, counted])
              | ok result =>
                  obtain ⟨count, middle⟩ := result
                  obtain ⟨header, split, four⟩ := readUint32_ok counted
                  have shorter : after.length = 4 + middle.length := by
                    rw [split, List.length_append, four]
                  cases tag with
                  | array =>
                      have items := itemReads_within ih count middle
                      refine ⟨?_, ?_⟩
                      · have := items.always
                        simp only [valueReads, tagged, chosen, counted]
                        omega
                      · intro value rest same
                        simp only [readValue, tagged, chosen, counted,
                          Result.ok_bind] at same
                        obtain ⟨⟨result, remaining⟩, taken, same⟩ :=
                          Result.bind_eq_ok.mp same
                        cases same
                        have := items.returned _ _ taken
                        simp only [valueReads, tagged, chosen, counted]
                        omega
                  | document =>
                      have fields := fieldReads_within ih count [] middle
                      refine ⟨?_, ?_⟩
                      · have := fields.always
                        simp only [valueReads, tagged, chosen, counted]
                        omega
                      · intro value rest same
                        simp only [readValue, tagged, chosen, counted,
                          Result.ok_bind] at same
                        obtain ⟨⟨result, remaining⟩, taken, same⟩ :=
                          Result.bind_eq_ok.mp same
                        cases same
                        have := fields.returned _ _ taken
                        simp only [valueReads, tagged, chosen, counted]
                        omega
                  | _ =>
                      exact alone (by simp only [valueReads, tagged, chosen])

/--
Whatever arrives: the decoder reads at most one value for each byte and one
more, and a value that it returns was read from all bytes and is encoded again
in no more bytes.
-/
theorem encode_decoded (payload : Bytes) :
    valueReads (maxDocumentDepth + 1) payload ≤ payload.length + 1 ∧
      ∀ value, decodeDocumentValue payload = .ok value →
        readValue (maxDocumentDepth + 1) payload = .ok (value, []) ∧
          valueReads (maxDocumentDepth + 1) payload ≤ payload.length ∧
          ∃ bytes, encodeDocumentValue value = .ok bytes ∧
            bytes.length ≤ payload.length := by
  have within := valueReads_within (maxDocumentDepth + 1) payload
  refine ⟨within.always, ?_⟩
  intro value decoded
  obtain ⟨small, decoded⟩ := Result.else_of_ok decoded
  obtain ⟨⟨result, rest⟩, read, checked⟩ := Result.bind_eq_ok.mp decoded
  obtain ⟨empty, same⟩ := Result.else_of_ok checked
  cases same
  obtain rfl : rest = [] := by
    simpa using empty
  have received := readValue_received read
  have length := received.length
  have count := within.returned _ _ read
  have height := received.height
  simp only [List.length_nil, Nat.add_zero] at length count
  refine ⟨read, count, value.raw, ?_, length⟩
  exact encodeDocumentValue_ok.mpr
    ⟨⟨received.writable, by omega⟩, by omega, rfl⟩

/-- An array with the number 5 in eight bytes is encoded in fewer bytes. -/
theorem encode_decoded_wide_number :
    decodeDocumentValue [10, 0, 0, 0, 1, 4, 0, 0, 0, 0, 0, 0, 0, 5] =
        .ok (.array [.number (.ofInt 5)]) ∧
      ∃ bytes,
        encodeDocumentValue (.array [.number (.ofInt 5)]) = .ok bytes ∧
          bytes.length ≤ 14 := by
  have decoded :
      decodeDocumentValue [10, 0, 0, 0, 1, 4, 0, 0, 0, 0, 0, 0, 0, 5] =
        .ok (.array [.number (.ofInt 5)]) := by
    decide +kernel
  obtain ⟨-, -, bytes, encodes, length⟩ := (encode_decoded _).2 _ decoded
  exact ⟨decoded, bytes, encodes, length⟩

end SinterDb
