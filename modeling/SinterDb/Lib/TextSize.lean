import SinterDb.Lib.Json

namespace SinterDb.Unicode

/-!
# The size of a text in UTF-8

The bytes of well-formed texts add up, and quoting a text for JSON gives a
well-formed text that is no shorter.
-/

/-- Code points that are written in front of a text are read first. -/
theorem codePoints_toUnits_append
    {points : List Nat}
    (scalars : ∀ point ∈ points, IsScalar point)
    (rest : JsString) :
    codePoints (toUnits points ++ rest) = points ++ codePoints rest := by
  induction points with
  | nil =>
      rfl
  | cons point later inductionHypothesis =>
      rw [List.forall_mem_cons] at scalars
      have inside := inductionHypothesis scalars.2
      unfold toUnits at inside ⊢
      rw [List.flatMap_cons, List.append_assoc,
        codePoints_unitsOf_append scalars.1, inside, List.cons_append]

/-- The bytes of a text behind a well-formed one. -/
theorem length_encode_append
    {first : JsString}
    (wellFormed : isWellFormed first = true)
    (second : JsString) :
    (TextEncoder.encode (first ++ second)).length =
      (TextEncoder.encode first).length +
        (TextEncoder.encode second).length := by
  have points : codePoints (first ++ second) =
      codePoints first ++ codePoints second := by
    conv_lhs => rw [← toUnits_codePoints wellFormed]
    exact codePoints_toUnits_append (codePoints_scalar first) second
  unfold TextEncoder.encode utf8Encode
  rw [points, List.flatMap_append, List.length_append]

/-- A literal has at most four bytes for each character. -/
theorem length_encode_utf16_le
    (literal : String) :
    (TextEncoder.encode (utf16 literal)).length ≤
      4 * literal.toList.length := by
  have scalars :
      ∀ point ∈ literal.toList.map Char.toNat, IsScalar point := by
    intro point member
    rcases List.mem_map.mp member with ⟨char, -, rfl⟩
    rcases char.valid with low | high
    · exact .inl low
    · exact .inr ⟨Nat.le_of_lt_succ (Nat.succ_lt_succ high.1), high.2⟩
  unfold TextEncoder.encode utf16
  rw [codePoints_toUnits scalars]
  have each : ∀ points : List Nat,
      (utf8Encode points).length ≤ 4 * points.length := by
    intro points
    induction points with
    | nil =>
        exact Nat.le_refl _
    | cons point rest inductionHypothesis =>
        have first : (utf8Of point).length ≤ 4 := by
          unfold utf8Of
          split_ifs <;> simp
        unfold utf8Encode at inductionHypothesis ⊢
        rw [List.flatMap_cons, List.length_append, List.length_cons]
        omega
  have bound := each (literal.toList.map Char.toNat)
  rwa [List.length_map] at bound

/-- A code unit that is no surrogate. -/
def IsPlain (unit : UInt16) : Prop :=
  isHighSurrogate unit = false ∧ isLowSurrogate unit = false

instance (unit : UInt16) : Decidable (IsPlain unit) :=
  inferInstanceAs (Decidable (_ ∧ _))

/-- Code units that are no surrogates are well formed. -/
theorem isWellFormed_of_plain
    {text : JsString}
    (plain : ∀ unit ∈ text, IsPlain unit) :
    isWellFormed text = true := by
  induction text using isWellFormed.induct with
  | case1 =>
      rfl
  | case2 unit =>
      have isPlain := plain unit (List.mem_singleton_self unit)
      simp [isWellFormed, isPlain.1, isPlain.2]
  | case3 unit next rest isHigh inductionHypothesis =>
      have isPlain := plain unit (by simp)
      rw [isPlain.1] at isHigh
      cases isHigh
  | case4 unit next rest notHigh inductionHypothesis =>
      have isPlain := plain unit (by simp)
      have later :=
        inductionHypothesis fun other member => plain other (by simp [member])
      simp [isWellFormed, isPlain.1, isPlain.2, later]

/-- ASCII characters are plain. -/
theorem IsPlain.of_ascii
    {unit : UInt16}
    (ascii : unit.toNat < 0x80) :
    IsPlain unit := by
  unfold IsPlain isHighSurrogate isLowSurrogate
  simp only [Bool.and_eq_false_iff, decide_eq_false_iff_not]
  exact ⟨.inl (by omega), .inl (by omega)⟩

/-- An ASCII text has a byte for each character. -/
theorem length_encode_ascii
    {text : JsString}
    (ascii : ∀ unit ∈ text, unit.toNat < 0x80) :
    (TextEncoder.encode text).length = text.length := by
  induction text with
  | nil =>
      rfl
  | cons unit rest inductionHypothesis =>
      rw [List.forall_mem_cons] at ascii
      have plain := IsPlain.of_ascii ascii.1
      have first : (TextEncoder.encode [unit]).length = 1 := by
        simp [TextEncoder.encode, codePoints, loneUnit, plain.1, plain.2,
          utf8Encode, utf8Of, ascii.1]
      have wellFormed : isWellFormed [unit] = true := by
        simp [isWellFormed, plain.1, plain.2]
      rw [← List.singleton_append, length_encode_append wellFormed, first,
        inductionHypothesis ascii.2, List.length_append,
        List.length_singleton]

/-- A digit of an escape is an ASCII character. -/
theorem hexDigit_lt
    {value : Nat}
    (small : value < 16) :
    (hexDigit value).toNat < 0x80 := by
  interval_cases value <;> decide

/-- Several ASCII characters, of which there is at least one. -/
def IsEscape (text : JsString) : Prop :=
  text ≠ [] ∧ ∀ unit ∈ text, unit.toNat < 0x80

/-- A backslash and a character. -/
theorem isEscape_pair
    {unit : UInt16}
    (ascii : unit.toNat < 0x80) :
    IsEscape [0x5C, unit] := by
  refine ⟨List.cons_ne_nil _ _, ?_⟩
  simp only [List.forall_mem_cons]
  exact ⟨by decide, ascii, List.forall_mem_nil _⟩

/-- An escape of four digits. -/
theorem isEscape_unicodeEscape
    (unit : UInt16) :
    IsEscape (Json.unicodeEscape unit) := by
  have bound := unit.toNat_lt
  refine ⟨List.cons_ne_nil _ _, ?_⟩
  unfold Json.unicodeEscape
  simp only [List.forall_mem_cons]
  exact ⟨by decide, by decide, hexDigit_lt (by omega),
    hexDigit_lt (by omega), hexDigit_lt (by omega), hexDigit_lt (by omega),
    List.forall_mem_nil _⟩

/-- A code unit stands for itself, or an escape stands for it; a character
that is escaped and no surrogate is an ASCII character. -/
theorem quoteLone_cases
    (unit : UInt16) :
    Json.quoteLone unit = [unit] ∧ IsPlain unit ∨
      IsEscape (Json.quoteLone unit) ∧
        (IsPlain unit → unit.toNat < 0x80) := by
  unfold Json.quoteLone
  split_ifs with isSurrogate
  · refine .inr ⟨isEscape_unicodeEscape unit, fun plain => ?_⟩
    rw [plain.1, plain.2] at isSurrogate
    cases isSurrogate
  · rw [Bool.or_eq_true, not_or, Bool.not_eq_true, Bool.not_eq_true]
      at isSurrogate
    unfold Json.quoteUnit
    split_ifs with isBackspace isTab isNewline isFormFeed isReturn isQuote
      isBackslash isControl
    · exact .inr ⟨isEscape_pair (by decide), fun _ => by
        rw [isBackspace]; decide⟩
    · exact .inr ⟨isEscape_pair (by decide), fun _ => by rw [isTab]; decide⟩
    · exact .inr ⟨isEscape_pair (by decide), fun _ => by
        rw [isNewline]; decide⟩
    · exact .inr ⟨isEscape_pair (by decide), fun _ => by
        rw [isFormFeed]; decide⟩
    · exact .inr ⟨isEscape_pair (by decide), fun _ => by
        rw [isReturn]; decide⟩
    · exact .inr ⟨isEscape_pair (by decide), fun _ => by
        rw [isQuote]; decide⟩
    · exact .inr ⟨isEscape_pair (by decide), fun _ => by
        rw [isBackslash]; decide⟩
    · exact .inr ⟨isEscape_unicodeEscape unit, fun _ => by omega⟩
    · exact .inl ⟨rfl, isSurrogate⟩

/-- What stands for a code unit is well formed. -/
theorem isWellFormed_quoteLone
    (unit : UInt16) :
    isWellFormed (Json.quoteLone unit) = true := by
  rcases quoteLone_cases unit with ⟨same, plain⟩ | ⟨escape, -⟩
  · rw [same]
    simp [isWellFormed, plain.1, plain.2]
  · exact isWellFormed_of_plain fun other member =>
      .of_ascii (escape.2 other member)

/-- A plain code unit takes no more bytes than what stands for it. -/
theorem length_encode_le_quoteLone
    {unit : UInt16}
    (plain : IsPlain unit) :
    (TextEncoder.encode [unit]).length ≤
      (TextEncoder.encode (Json.quoteLone unit)).length := by
  rcases quoteLone_cases unit with ⟨same, -⟩ | ⟨escape, ascii⟩
  · rw [same]
  · have single : ∀ other ∈ [unit], other.toNat < 0x80 := by
      intro other member
      rw [List.mem_singleton.mp member]
      exact ascii plain
    rw [length_encode_ascii single, length_encode_ascii escape.2]
    exact List.length_pos_of_ne_nil escape.1

/-- The text between the quotes is well formed, whatever was quoted. -/
theorem isWellFormed_quoteUnits
    (text : JsString) :
    isWellFormed (Json.quoteUnits text) = true := by
  induction text using Json.quoteUnits.induct with
  | case1 =>
      rfl
  | case2 unit =>
      exact isWellFormed_quoteLone unit
  | case3 unit next rest isPair inductionHypothesis =>
      rw [Json.quoteUnits, if_pos isPair]
      rw [Bool.and_eq_true] at isPair
      simp [isWellFormed, isPair.1, isPair.2, inductionHypothesis]
  | case4 unit next rest isAlone inductionHypothesis =>
      rw [Json.quoteUnits, if_neg isAlone]
      exact isWellFormed_append_of (isWellFormed_quoteLone unit)
        inductionHypothesis

/-- `JSON.stringify` of a text is well formed. -/
theorem isWellFormed_quote
    (text : JsString) :
    isWellFormed (Json.quote text) = true :=
  isWellFormed_append_of
    (isWellFormed_append_of (by decide) (isWellFormed_quoteUnits text))
    (by decide)

/-- The text between the quotes has no fewer bytes than what was quoted. -/
theorem length_encode_le_quoteUnits
    {text : JsString}
    (wellFormed : isWellFormed text = true) :
    (TextEncoder.encode text).length ≤
      (TextEncoder.encode (Json.quoteUnits text)).length := by
  induction text using Json.quoteUnits.induct with
  | case1 =>
      exact Nat.le_refl _
  | case2 unit =>
      simp only [isWellFormed, Bool.and_eq_true, Bool.not_eq_true']
        at wellFormed
      exact length_encode_le_quoteLone wellFormed
  | case3 unit next rest isPair inductionHypothesis =>
      rw [Json.quoteUnits, if_pos isPair]
      rw [Bool.and_eq_true] at isPair
      have pair : isWellFormed [unit, next] = true := by
        simp [isWellFormed, isPair.1, isPair.2]
      have split : ∀ other : JsString,
          unit :: next :: other = [unit, next] ++ other := fun _ => rfl
      rw [split, isWellFormed_append pair] at wellFormed
      rw [split, split (Json.quoteUnits rest), length_encode_append pair,
        length_encode_append pair]
      exact Nat.add_le_add_left (inductionHypothesis wellFormed) _
  | case4 unit next rest isAlone inductionHypothesis =>
      rw [Json.quoteUnits, if_neg isAlone]
      have plain : IsPlain unit := by
        rw [isWellFormed] at wellFormed
        split_ifs at wellFormed with isHigh
        · rw [Bool.and_eq_true] at wellFormed
          exact absurd (by rw [isHigh, wellFormed.1]; rfl) isAlone
        · rw [Bool.and_eq_true, Bool.not_eq_true'] at wellFormed
          rw [Bool.not_eq_true] at isHigh
          exact ⟨isHigh, wellFormed.1⟩
      have single : isWellFormed [unit] = true := by
        simp [isWellFormed, plain.1, plain.2]
      rw [← List.singleton_append, isWellFormed_append single] at wellFormed
      rw [← List.singleton_append, length_encode_append single,
        length_encode_append (isWellFormed_quoteLone unit)]
      exact Nat.add_le_add (length_encode_le_quoteLone plain)
        (inductionHypothesis wellFormed)

/-- Quoting a text adds two quotes and removes nothing. -/
theorem length_encode_le_quote
    {text : JsString}
    (wellFormed : isWellFormed text = true) :
    (TextEncoder.encode text).length + 2 ≤
      (TextEncoder.encode (Json.quote text)).length := by
  have inside := length_encode_le_quoteUnits wellFormed
  have opened : isWellFormed ([0x22] ++ Json.quoteUnits text) = true :=
    isWellFormed_append_of (by decide) (isWellFormed_quoteUnits text)
  have quoteSize : (TextEncoder.encode [0x22]).length = 1 := by decide
  unfold Json.quote
  rw [length_encode_append opened, length_encode_append (by decide),
    quoteSize]
  omega

end SinterDb.Unicode
