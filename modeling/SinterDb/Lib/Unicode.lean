import SinterDb.Lib.Bytes

namespace SinterDb

/-!
# Strings of UTF-16 code units and their UTF-8 form

A string is a list of 16-bit code units, which may hold lone surrogates.
`TextEncoder.encode` and `TextDecoder.decode` follow the Encoding standard;
the decoder is the fatal one and drops a leading byte order mark.
-/

/-- A string: its UTF-16 code units. -/
abbrev JsString := List UInt16

/-- Strings that test equal are equal. -/
instance instLawfulBEqJsString : LawfulBEq JsString :=
  inferInstance

namespace Unicode

/-- A leading surrogate. -/
def isHighSurrogate (unit : UInt16) : Bool :=
  0xD800 ≤ unit.toNat && unit.toNat ≤ 0xDBFF

/-- A trailing surrogate. -/
def isLowSurrogate (unit : UInt16) : Bool :=
  0xDC00 ≤ unit.toNat && unit.toNat ≤ 0xDFFF

/-- `String.prototype.isWellFormed`: every surrogate stands in a pair. -/
def isWellFormed : JsString → Bool
  | [] => true
  | [unit] => !isHighSurrogate unit && !isLowSurrogate unit
  | unit :: next :: rest =>
      if isHighSurrogate unit then
        isLowSurrogate next && isWellFormed rest
      else
        !isLowSurrogate unit && isWellFormed (next :: rest)

/-- The code point of a surrogate pair. -/
def combine (high low : UInt16) : Nat :=
  0x10000 + (high.toNat - 0xD800) * 0x400 + (low.toNat - 0xDC00)

/-- A code unit on its own; a lone surrogate becomes U+FFFD. -/
def loneUnit (unit : UInt16) : Nat :=
  if isHighSurrogate unit || isLowSurrogate unit then
    0xFFFD
  else
    unit.toNat

/-- The code points of a string. -/
def codePoints : JsString → List Nat
  | [] => []
  | [unit] => [loneUnit unit]
  | unit :: next :: rest =>
      if isHighSurrogate unit && isLowSurrogate next then
        combine unit next :: codePoints rest
      else
        loneUnit unit :: codePoints (next :: rest)

/-- The code points that UTF-8 and UTF-16 can write. -/
def IsScalar (point : Nat) : Prop :=
  point < 0xD800 ∨ 0xE000 ≤ point ∧ point < 0x110000

/-- The code units of one code point. -/
def unitsOf (point : Nat) : JsString :=
  if point < 0x10000 then
    [UInt16.ofNat point]
  else
    [UInt16.ofNat (0xD800 + (point - 0x10000) / 0x400),
      UInt16.ofNat (0xDC00 + (point - 0x10000) % 0x400)]

/-- The code units of a list of code points. -/
def toUnits (points : List Nat) : JsString :=
  points.flatMap unitsOf

/-- The UTF-8 bytes of one code point. -/
def utf8Of (point : Nat) : Bytes :=
  if point < 0x80 then
    [UInt8.ofNat point]
  else if point < 0x800 then
    [UInt8.ofNat (0xC0 + point / 0x40),
      UInt8.ofNat (0x80 + point % 0x40)]
  else if point < 0x10000 then
    [UInt8.ofNat (0xE0 + point / 0x1000),
      UInt8.ofNat (0x80 + point / 0x40 % 0x40),
      UInt8.ofNat (0x80 + point % 0x40)]
  else
    [UInt8.ofNat (0xF0 + point / 0x40000),
      UInt8.ofNat (0x80 + point / 0x1000 % 0x40),
      UInt8.ofNat (0x80 + point / 0x40 % 0x40),
      UInt8.ofNat (0x80 + point % 0x40)]

/-- The UTF-8 bytes of a list of code points. -/
def utf8Encode (points : List Nat) : Bytes :=
  points.flatMap utf8Of

/-- What the decoder keeps between two bytes. -/
structure DecoderState where
  needed : Nat
  lower : Nat
  upper : Nat
  point : Nat
  deriving Repr, DecidableEq

/-- The decoder between two code points. -/
def DecoderState.start : DecoderState := ⟨0, 0x80, 0xBF, 0⟩

/-- A leading byte: a whole code point, or the state after the byte. -/
def leadingByte (byte : Nat) : Option (Nat ⊕ DecoderState) :=
  if byte ≤ 0x7F then
    some (.inl byte)
  else if 0xC2 ≤ byte ∧ byte ≤ 0xDF then
    some (.inr ⟨1, 0x80, 0xBF, byte % 0x20⟩)
  else if 0xE0 ≤ byte ∧ byte ≤ 0xEF then
    some (.inr ⟨2, if byte = 0xE0 then 0xA0 else 0x80,
      if byte = 0xED then 0x9F else 0xBF, byte % 0x10⟩)
  else if 0xF0 ≤ byte ∧ byte ≤ 0xF4 then
    some (.inr ⟨3, if byte = 0xF0 then 0x90 else 0x80,
      if byte = 0xF4 then 0x8F else 0xBF, byte % 0x8⟩)
  else
    none

/-- The UTF-8 decoder, failing at the first byte that no text allows. -/
def utf8DecodeFrom : DecoderState → Bytes → Option (List Nat)
  | state, [] => if state.needed = 0 then some [] else none
  | state, byte :: rest =>
      if state.needed = 0 then
        match leadingByte byte.toNat with
        | none => none
        | some (.inl point) =>
            (utf8DecodeFrom .start rest).map (point :: ·)
        | some (.inr state) => utf8DecodeFrom state rest
      else if state.lower ≤ byte.toNat ∧ byte.toNat ≤ state.upper then
        let point := state.point * 0x40 + byte.toNat % 0x40
        if state.needed = 1 then
          (utf8DecodeFrom .start rest).map (point :: ·)
        else
          utf8DecodeFrom ⟨state.needed - 1, 0x80, 0xBF, point⟩ rest
      else
        none

/-- The UTF-8 decoder on a whole text. -/
def utf8Decode (bytes : Bytes) : Option (List Nat) :=
  utf8DecodeFrom .start bytes

/-- The text without a leading byte order mark. -/
def stripBom : JsString → JsString
  | 0xFEFF :: rest => rest
  | text => text

/-- A text starts with a byte order mark. -/
def startsWithBom (text : JsString) : Bool :=
  text.head? == some 0xFEFF

/-- The code units of a literal. -/
def utf16 (literal : String) : JsString :=
  toUnits (literal.toList.map Char.toNat)

/-- A hexadecimal digit in lower case. -/
def hexDigit (value : Nat) : UInt16 :=
  UInt16.ofNat (if value < 10 then 0x30 + value else 0x57 + value)

end Unicode

/-- `new TextEncoder().encode`. -/
def TextEncoder.encode (text : JsString) : Bytes :=
  Unicode.utf8Encode (Unicode.codePoints text)

/--
`new TextDecoder("utf-8", fatal).decode`: without the option `ignoreBOM` a
leading U+FEFF is not part of the output.
-/
def TextDecoder.decode (bytes : Bytes) : Option JsString :=
  (Unicode.utf8Decode bytes).map fun points =>
    Unicode.stripBom (Unicode.toUnits points)

namespace Unicode

/-- The value of a byte that fits. -/
theorem toNat_byte
    {value : Nat}
    (fits : value < 256) :
    (UInt8.ofNat value).toNat = value := by
  rw [UInt8.toNat_ofNat', Nat.mod_eq_of_lt fits]

/-- A leading byte moves the decoder to the state it selects. -/
theorem utf8DecodeFrom_leading
    {value : Nat}
    (fits : value < 256)
    {state : DecoderState}
    (leads : leadingByte value = some (.inr state))
    (rest : Bytes) :
    utf8DecodeFrom .start (UInt8.ofNat value :: rest) =
      utf8DecodeFrom state rest := by
  simp [utf8DecodeFrom, DecoderState.start, toNat_byte fits, leads]

/-- A continuation byte in range is added to the code point. -/
theorem utf8DecodeFrom_continuation
    {value needed lower upper point : Nat}
    (atLeast : lower ≤ value)
    (atMost : value ≤ upper)
    (fits : value < 256)
    (rest : Bytes) :
    utf8DecodeFrom ⟨needed + 2, lower, upper, point⟩
        (UInt8.ofNat value :: rest) =
      utf8DecodeFrom
        ⟨needed + 1, 0x80, 0xBF, point * 0x40 + value % 0x40⟩ rest := by
  simp [utf8DecodeFrom, toNat_byte fits, atLeast, atMost]

/-- The last continuation byte completes the code point. -/
theorem utf8DecodeFrom_last
    {value lower upper point : Nat}
    (atLeast : lower ≤ value)
    (atMost : value ≤ upper)
    (fits : value < 256)
    (rest : Bytes) :
    utf8DecodeFrom ⟨1, lower, upper, point⟩ (UInt8.ofNat value :: rest) =
      (utf8DecodeFrom .start rest).map
        ((point * 0x40 + value % 0x40) :: ·) := by
  simp [utf8DecodeFrom, toNat_byte fits, atLeast, atMost]

/-- The decoder reads back the bytes of one code point. -/
theorem utf8DecodeFrom_utf8Of
    {point : Nat}
    (scalar : IsScalar point)
    (rest : Bytes) :
    utf8DecodeFrom .start (utf8Of point ++ rest) =
      (utf8DecodeFrom .start rest).map (point :: ·) := by
  unfold IsScalar at scalar
  unfold utf8Of
  split_ifs with one two three
  · have fits : point < 256 := by omega
    have leads : leadingByte point = some (.inl point) := by
      unfold leadingByte
      rw [if_pos (by omega)]
    simp [utf8DecodeFrom, DecoderState.start, toNat_byte fits, leads]
  · have leads :
        leadingByte (0xC0 + point / 0x40) =
          some (.inr ⟨1, 0x80, 0xBF, (0xC0 + point / 0x40) % 0x20⟩) := by
      unfold leadingByte
      rw [if_neg (by omega), if_pos (by omega)]
    have value :
        (0xC0 + point / 0x40) % 0x20 * 0x40 +
          (0x80 + point % 0x40) % 0x40 = point := by
      omega
    rw [List.cons_append, List.cons_append, List.nil_append,
      utf8DecodeFrom_leading (by omega) leads,
      utf8DecodeFrom_last (by omega) (by omega) (by omega), value]
  · have leads :
        leadingByte (0xE0 + point / 0x1000) =
          some (.inr
            ⟨2, if 0xE0 + point / 0x1000 = 0xE0 then 0xA0 else 0x80,
              if 0xE0 + point / 0x1000 = 0xED then 0x9F else 0xBF,
              (0xE0 + point / 0x1000) % 0x10⟩) := by
      unfold leadingByte
      rw [if_neg (by omega), if_neg (by omega), if_pos (by omega)]
    have value :
        ((0xE0 + point / 0x1000) % 0x10 * 0x40 +
            (0x80 + point / 0x40 % 0x40) % 0x40) * 0x40 +
          (0x80 + point % 0x40) % 0x40 = point := by
      omega
    rw [List.cons_append, List.cons_append, List.cons_append,
      List.nil_append, utf8DecodeFrom_leading (by omega) leads,
      utf8DecodeFrom_continuation (by split <;> omega) (by split <;> omega)
        (by omega),
      utf8DecodeFrom_last (by omega) (by omega) (by omega), value]
  · have leads :
        leadingByte (0xF0 + point / 0x40000) =
          some (.inr
            ⟨3, if 0xF0 + point / 0x40000 = 0xF0 then 0x90 else 0x80,
              if 0xF0 + point / 0x40000 = 0xF4 then 0x8F else 0xBF,
              (0xF0 + point / 0x40000) % 0x8⟩) := by
      unfold leadingByte
      rw [if_neg (by omega), if_neg (by omega), if_neg (by omega),
        if_pos (by omega)]
    have value :
        (((0xF0 + point / 0x40000) % 0x8 * 0x40 +
              (0x80 + point / 0x1000 % 0x40) % 0x40) * 0x40 +
            (0x80 + point / 0x40 % 0x40) % 0x40) * 0x40 +
          (0x80 + point % 0x40) % 0x40 = point := by
      omega
    rw [List.cons_append, List.cons_append, List.cons_append,
      List.cons_append, List.nil_append,
      utf8DecodeFrom_leading (by omega) leads,
      utf8DecodeFrom_continuation (by split <;> omega) (by split <;> omega)
        (by omega),
      utf8DecodeFrom_continuation (by omega) (by omega) (by omega),
      utf8DecodeFrom_last (by omega) (by omega) (by omega), value]

/-- The decoder reads back what the encoder writes. -/
theorem utf8Decode_utf8Encode
    {points : List Nat}
    (scalars : ∀ point ∈ points, IsScalar point) :
    utf8Decode (utf8Encode points) = some points := by
  unfold utf8Decode utf8Encode
  induction points with
  | nil =>
      rfl
  | cons point rest inductionHypothesis =>
      rw [List.forall_mem_cons] at scalars
      rw [List.flatMap_cons, utf8DecodeFrom_utf8Of scalars.1,
        inductionHypothesis scalars.2]
      rfl

/-- Two lists of scalar values with the same bytes are the same. -/
theorem utf8Encode_injective
    {first second : List Nat}
    (firstScalars : ∀ point ∈ first, IsScalar point)
    (secondScalars : ∀ point ∈ second, IsScalar point)
    (same : utf8Encode first = utf8Encode second) :
    first = second := by
  have decoded := utf8Decode_utf8Encode firstScalars
  rw [same, utf8Decode_utf8Encode secondScalars] at decoded
  exact (Option.some.inj decoded).symm

/-- The code points of any string are scalar values. -/
theorem codePoints_scalar
    (text : JsString) :
    ∀ point ∈ codePoints text, IsScalar point := by
  have lone : ∀ unit, IsScalar (loneUnit unit) := by
    intro unit
    have bound := unit.toNat_lt
    unfold loneUnit IsScalar isHighSurrogate isLowSurrogate
    split_ifs with surrogate
    · omega
    · simp only [Bool.or_eq_true, Bool.and_eq_true, decide_eq_true_eq]
        at surrogate
      omega
  induction text using codePoints.induct with
  | case1 =>
      simp [codePoints]
  | case2 unit =>
      simpa [codePoints] using lone unit
  | case3 unit next rest paired inductionHypothesis =>
      simp only [codePoints, paired, if_true, List.forall_mem_cons]
      refine ⟨?_, inductionHypothesis⟩
      simp only [isHighSurrogate, isLowSurrogate, Bool.and_eq_true,
        decide_eq_true_eq] at paired
      unfold combine IsScalar
      omega
  | case4 unit next rest unpaired inductionHypothesis =>
      rw [codePoints, if_neg unpaired, List.forall_mem_cons]
      exact ⟨lone unit, inductionHypothesis⟩

/-- A code unit that is no surrogate is written as itself. -/
theorem unitsOf_loneUnit
    {unit : UInt16}
    (notHigh : isHighSurrogate unit = false)
    (notLow : isLowSurrogate unit = false) :
    unitsOf (loneUnit unit) = [unit] := by
  have bound := unit.toNat_lt
  have small : unit.toNat < 0x10000 := by omega
  simp [unitsOf, loneUnit, notHigh, notLow, small]

/-- A surrogate pair is written as itself. -/
theorem unitsOf_combine
    {high low : UInt16}
    (isHigh : isHighSurrogate high = true)
    (isLow : isLowSurrogate low = true) :
    unitsOf (combine high low) = [high, low] := by
  simp only [isHighSurrogate, isLowSurrogate, Bool.and_eq_true,
    decide_eq_true_eq] at isHigh isLow
  have notSmall : ¬ combine high low < 0x10000 := by
    unfold combine
    omega
  have highUnit :
      0xD800 + (combine high low - 0x10000) / 0x400 = high.toNat := by
    unfold combine
    omega
  have lowUnit :
      0xDC00 + (combine high low - 0x10000) % 0x400 = low.toNat := by
    unfold combine
    omega
  rw [unitsOf, if_neg notSmall, highUnit, lowUnit, UInt16.ofNat_toNat,
    UInt16.ofNat_toNat]

/-- The code points of a well-formed string write the string back. -/
theorem toUnits_codePoints
    {text : JsString}
    (wellFormed : isWellFormed text = true) :
    toUnits (codePoints text) = text := by
  induction text using codePoints.induct with
  | case1 =>
      rfl
  | case2 unit =>
      simp only [isWellFormed, Bool.and_eq_true, Bool.not_eq_true'] at wellFormed
      simp [codePoints, toUnits, unitsOf_loneUnit wellFormed.1 wellFormed.2]
  | case3 unit next rest paired inductionHypothesis =>
      simp only [Bool.and_eq_true] at paired
      simp only [isWellFormed, paired.1, paired.2, if_true, Bool.true_and]
        at wellFormed
      have later := inductionHypothesis wellFormed
      unfold toUnits at later ⊢
      simp [codePoints, paired.1, paired.2,
        unitsOf_combine paired.1 paired.2, later]
  | case4 unit next rest unpaired inductionHypothesis =>
      have notHigh : isHighSurrogate unit = false := by
        rw [Bool.eq_false_iff]
        intro isHigh
        simp only [isWellFormed, isHigh, if_true, Bool.and_eq_true]
          at wellFormed
        simp [isHigh, wellFormed.1] at unpaired
      simp only [isWellFormed, notHigh, Bool.false_eq_true, if_false,
        Bool.and_eq_true, Bool.not_eq_true'] at wellFormed
      have later := inductionHypothesis wellFormed.2
      unfold toUnits at later ⊢
      simp [codePoints, notHigh, unitsOf_loneUnit notHigh wellFormed.1,
        later]

/-- Two well-formed strings with the same bytes are the same. -/
theorem encode_injective
    {first second : JsString}
    (firstWellFormed : isWellFormed first = true)
    (secondWellFormed : isWellFormed second = true)
    (same : TextEncoder.encode first = TextEncoder.encode second) :
    first = second := by
  have points :=
    utf8Encode_injective (codePoints_scalar first) (codePoints_scalar second)
      same
  rw [← toUnits_codePoints firstWellFormed, points,
    toUnits_codePoints secondWellFormed]

/-- Decoding an encoded string loses exactly a leading byte order mark. -/
theorem decode_encode
    {text : JsString}
    (wellFormed : isWellFormed text = true) :
    TextDecoder.decode (TextEncoder.encode text) = some (stripBom text) := by
  simp [TextDecoder.decode, TextEncoder.encode,
    utf8Decode_utf8Encode (codePoints_scalar text),
    toUnits_codePoints wellFormed]

/-- A well-formed string in front does not matter. -/
theorem isWellFormed_append
    {first : JsString}
    (wellFormed : isWellFormed first = true)
    (second : JsString) :
    isWellFormed (first ++ second) = isWellFormed second := by
  induction first using isWellFormed.induct with
  | case1 =>
      rfl
  | case2 unit =>
      simp only [isWellFormed, Bool.and_eq_true, Bool.not_eq_true']
        at wellFormed
      cases second with
      | nil =>
          simp [isWellFormed, wellFormed.1, wellFormed.2]
      | cons next rest =>
          simp [isWellFormed, wellFormed.1, wellFormed.2]
  | case3 unit next rest isHigh inductionHypothesis =>
      simp only [isWellFormed, isHigh, if_true, Bool.and_eq_true]
        at wellFormed
      simp [isWellFormed, isHigh, wellFormed.1,
        inductionHypothesis wellFormed.2]
  | case4 unit next rest notHigh inductionHypothesis =>
      simp only [isWellFormed, notHigh, Bool.false_eq_true, if_false,
        Bool.and_eq_true, Bool.not_eq_true'] at wellFormed
      have later := inductionHypothesis wellFormed.2
      rw [List.cons_append] at later
      simp [isWellFormed, notHigh, wellFormed.1, later]

/-- Well-formed strings are closed under concatenation. -/
theorem isWellFormed_append_of
    {first second : JsString}
    (firstWellFormed : isWellFormed first = true)
    (secondWellFormed : isWellFormed second = true) :
    isWellFormed (first ++ second) = true := by
  rw [isWellFormed_append firstWellFormed, secondWellFormed]

/-- The code units of one scalar value are well formed. -/
theorem isWellFormed_unitsOf
    {point : Nat}
    (scalar : IsScalar point) :
    isWellFormed (unitsOf point) = true := by
  unfold IsScalar at scalar
  unfold unitsOf
  split_ifs with small
  · simp [isWellFormed, isHighSurrogate, isLowSurrogate,
      Nat.mod_eq_of_lt small]
    omega
  · have highFits : 0xD800 + (point - 0x10000) / 0x400 < 65536 := by omega
    have lowFits : 0xDC00 + (point - 0x10000) % 0x400 < 65536 := by omega
    have isHigh :
        isHighSurrogate
          (UInt16.ofNat (0xD800 + (point - 0x10000) / 0x400)) = true := by
      rw [isHighSurrogate, UInt16.toNat_ofNat', Nat.mod_eq_of_lt highFits]
      simp
      omega
    have isLow :
        isLowSurrogate
          (UInt16.ofNat (0xDC00 + (point - 0x10000) % 0x400)) = true := by
      rw [isLowSurrogate, UInt16.toNat_ofNat', Nat.mod_eq_of_lt lowFits]
      simp
      omega
    simp only [isWellFormed, isHigh, isLow, if_true, Bool.and_self]

/-- The code units of scalar values are well formed. -/
theorem isWellFormed_toUnits
    {points : List Nat}
    (scalars : ∀ point ∈ points, IsScalar point) :
    isWellFormed (toUnits points) = true := by
  induction points with
  | nil =>
      rfl
  | cons point rest inductionHypothesis =>
      rw [List.forall_mem_cons] at scalars
      rw [toUnits, List.flatMap_cons]
      exact isWellFormed_append_of (isWellFormed_unitsOf scalars.1)
        (inductionHypothesis scalars.2)

/-- Every literal is well formed. -/
theorem isWellFormed_utf16
    (literal : String) :
    isWellFormed (utf16 literal) = true := by
  apply isWellFormed_toUnits
  intro point member
  obtain ⟨char, -, rfl⟩ := List.mem_map.mp member
  rcases char.valid with low | high
  · exact .inl low
  · exact .inr ⟨Nat.le_of_lt_succ (Nat.succ_lt_succ high.1), high.2⟩

/-- Dropping a byte order mark keeps a string well formed. -/
theorem isWellFormed_stripBom
    {text : JsString}
    (wellFormed : isWellFormed text = true) :
    isWellFormed (stripBom text) = true := by
  unfold stripBom
  split
  · rename_i rest
    have mark : isWellFormed [0xFEFF] = true := by decide
    rwa [← List.singleton_append, isWellFormed_append mark] at wellFormed
  · exact wellFormed

/-- Every way to complete the code point that has begun is a scalar value. -/
def DecoderState.Sound (state : DecoderState) : Prop :=
  state.needed = 0 ∨
    state.needed ≤ 3 ∧ 0x80 ≤ state.lower ∧ state.upper ≤ 0xBF ∧
      ((state.point * 0x40 + (state.upper - 0x80) + 1) *
            0x40 ^ (state.needed - 1) ≤ 0xD800 ∨
        0xE000 ≤
            (state.point * 0x40 + (state.lower - 0x80)) *
              0x40 ^ (state.needed - 1) ∧
          (state.point * 0x40 + (state.upper - 0x80) + 1) *
            0x40 ^ (state.needed - 1) ≤ 0x110000)

/-- A leading byte gives a scalar value or a sound state. -/
theorem leadingByte_sound
    {byte : Nat} :
    (∀ point, leadingByte byte = some (.inl point) → IsScalar point) ∧
      ∀ state, leadingByte byte = some (.inr state) → state.Sound := by
  unfold leadingByte
  by_cases one : byte ≤ 0x7F
  · rw [if_pos one]
    refine ⟨?_, by simp⟩
    intro point same
    obtain rfl : byte = point := by simpa using same
    exact .inl (by omega)
  rw [if_neg one]
  by_cases two : 0xC2 ≤ byte ∧ byte ≤ 0xDF
  · rw [if_pos two]
    refine ⟨by simp, ?_⟩
    intro state same
    simp only [Option.some.injEq, Sum.inr.injEq] at same
    subst same
    right
    simp only
    omega
  rw [if_neg two]
  by_cases three : 0xE0 ≤ byte ∧ byte ≤ 0xEF
  · rw [if_pos three]
    refine ⟨by simp, ?_⟩
    intro state same
    simp only [Option.some.injEq, Sum.inr.injEq] at same
    subst same
    right
    split_ifs <;> dsimp only <;> omega
  rw [if_neg three]
  by_cases four : 0xF0 ≤ byte ∧ byte ≤ 0xF4
  · rw [if_pos four]
    refine ⟨by simp, ?_⟩
    intro state same
    simp only [Option.some.injEq, Sum.inr.injEq] at same
    subst same
    right
    split_ifs <;> dsimp only <;> omega
  rw [if_neg four]
  exact ⟨by simp, by simp⟩

/-- The decoder gives scalar values only. -/
theorem utf8DecodeFrom_scalar
    {state : DecoderState}
    (sound : state.Sound)
    {bytes : Bytes}
    {points : List Nat}
    (decodes : utf8DecodeFrom state bytes = some points) :
    ∀ point ∈ points, IsScalar point := by
  induction bytes generalizing state points with
  | nil =>
      simp only [utf8DecodeFrom, Option.ite_none_right_eq_some,
        Option.some.injEq] at decodes
      simp [← decodes.2]
  | cons byte rest inductionHypothesis =>
      have fromStart :
          ∀ point points,
            IsScalar point →
            (utf8DecodeFrom .start rest).map (point :: ·) = some points →
            ∀ point ∈ points, IsScalar point := by
        intro point points scalar decodes
        obtain ⟨later, laterDecodes, rfl⟩ := Option.map_eq_some_iff.mp decodes
        rw [List.forall_mem_cons]
        exact ⟨scalar, inductionHypothesis (.inl rfl) laterDecodes⟩
      rw [utf8DecodeFrom] at decodes
      split_ifs at decodes with between inRange last
      · have leads := @leadingByte_sound byte.toNat
        split at decodes
        · cases decodes
        · rename_i point isPoint
          exact fromStart point points (leads.1 point isPoint) decodes
        · rename_i next isState
          exact inductionHypothesis (leads.2 next isState) decodes
      · rcases sound with none | ⟨-, low, high, bounds⟩
        · omega
        · refine fromStart _ points ?_ decodes
          unfold IsScalar
          rw [last] at bounds
          simp only [Nat.sub_self, Nat.pow_zero, Nat.mul_one] at bounds
          omega
      · rcases sound with none | ⟨few, low, high, bounds⟩
        · omega
        · refine inductionHypothesis ?_ decodes
          right
          simp only
          have cases : state.needed = 2 ∨ state.needed = 3 := by omega
          rcases cases with two | three
          · rw [two] at bounds ⊢
            omega
          · rw [three] at bounds ⊢
            omega

/-- What the decoder gives is well formed. -/
theorem isWellFormed_decode
    {bytes : Bytes}
    {text : JsString}
    (decodes : TextDecoder.decode bytes = some text) :
    isWellFormed text = true := by
  obtain ⟨points, pointsDecode, rfl⟩ := Option.map_eq_some_iff.mp decodes
  exact isWellFormed_stripBom
    (isWellFormed_toUnits (utf8DecodeFrom_scalar (.inl rfl) pointsDecode))

/-- Only a leading byte order mark is dropped. -/
theorem stripBom_eq_self
    {text : JsString}
    (noMark : startsWithBom text = false) :
    stripBom text = text := by
  unfold stripBom
  split
  · simp [startsWithBom] at noMark
  · rfl

/-- A leading byte order mark is one code unit. -/
theorem length_stripBom
    (text : JsString) :
    (stripBom text).length + (startsWithBom text).toNat = text.length := by
  unfold stripBom
  split
  · simp [startsWithBom]
  · rename_i noMark
    cases text with
    | nil =>
        rfl
    | cons unit rest =>
        have different : unit ≠ 0xFEFF := by
          rintro rfl
          exact noMark rest rfl
        simp [startsWithBom, different]

/-- Dropping a byte order mark changes nothing exactly when there is none. -/
theorem stripBom_eq_iff
    {text : JsString} :
    stripBom text = text ↔ startsWithBom text = false := by
  constructor
  · intro same
    have lengths := length_stripBom text
    rw [same] at lengths
    cases marked : startsWithBom text with
    | false =>
        rfl
    | true =>
        rw [marked] at lengths
        simp at lengths
  · exact stripBom_eq_self

/-- A text that is not empty has bytes. -/
theorem length_encode_pos
    {text : JsString}
    (notEmpty : text ≠ []) :
    0 < (TextEncoder.encode text).length := by
  have points : codePoints text ≠ [] := by
    unfold codePoints
    split
    · exact absurd rfl notEmpty
    · simp
    · split_ifs <;> simp
  obtain ⟨point, later, isPoints⟩ := List.exists_cons_of_ne_nil points
  have first : 0 < (utf8Of point).length := by
    unfold utf8Of
    split_ifs <;> simp
  simp only [TextEncoder.encode, isPoints, utf8Encode, List.flatMap_cons,
    List.length_append]
  omega

/-- Without a leading byte order mark a text is not longer in UTF-8. -/
theorem length_encode_stripBom
    (text : JsString) :
    (TextEncoder.encode (stripBom text)).length ≤
      (TextEncoder.encode text).length := by
  unfold stripBom
  split
  · rename_i rest
    have points : codePoints (0xFEFF :: rest) = 0xFEFF :: codePoints rest := by
      cases rest with
      | nil =>
          rfl
      | cons next rest =>
          rw [codePoints, if_neg (by simp [isHighSurrogate])]
          rfl
    simp [TextEncoder.encode, points, utf8Encode]
  · exact Nat.le_refl _

/-- The code units of a scalar value are read as that value. -/
theorem codePoints_unitsOf_append
    {point : Nat}
    (scalar : IsScalar point)
    (rest : JsString) :
    codePoints (unitsOf point ++ rest) = point :: codePoints rest := by
  by_cases small : point < 0x10000
  · have value : (UInt16.ofNat point).toNat = point := by
      rw [UInt16.toNat_ofNat']
      exact Nat.mod_eq_of_lt small
    have notHigh : isHighSurrogate (UInt16.ofNat point) = false := by
      rcases scalar with low | high <;>
        simp [isHighSurrogate, value] <;> omega
    have notLow : isLowSurrogate (UInt16.ofNat point) = false := by
      rcases scalar with low | high <;>
        simp [isLowSurrogate, value] <;> omega
    have alone : loneUnit (UInt16.ofNat point) = point := by
      simp [loneUnit, notHigh, notLow, value]
    rw [unitsOf, if_pos small, List.singleton_append]
    cases rest with
    | nil =>
        simp [codePoints, alone]
    | cons next rest =>
        simp [codePoints, notHigh, alone]
  · have bound : point < 0x110000 := by
      rcases scalar with low | high <;> omega
    have highValue :
        (UInt16.ofNat (0xD800 + (point - 0x10000) / 0x400)).toNat =
          0xD800 + (point - 0x10000) / 0x400 := by
      rw [UInt16.toNat_ofNat']
      exact Nat.mod_eq_of_lt (by omega)
    have lowValue :
        (UInt16.ofNat (0xDC00 + (point - 0x10000) % 0x400)).toNat =
          0xDC00 + (point - 0x10000) % 0x400 := by
      rw [UInt16.toNat_ofNat']
      exact Nat.mod_eq_of_lt (by omega)
    have isHigh :
        isHighSurrogate
          (UInt16.ofNat (0xD800 + (point - 0x10000) / 0x400)) = true := by
      simp only [isHighSurrogate, highValue, Bool.and_eq_true,
        decide_eq_true_eq]
      omega
    have isLow :
        isLowSurrogate
          (UInt16.ofNat (0xDC00 + (point - 0x10000) % 0x400)) = true := by
      simp only [isLowSurrogate, lowValue, Bool.and_eq_true,
        decide_eq_true_eq]
      omega
    have combined :
        combine (UInt16.ofNat (0xD800 + (point - 0x10000) / 0x400))
          (UInt16.ofNat (0xDC00 + (point - 0x10000) % 0x400)) = point := by
      unfold combine
      rw [highValue, lowValue]
      omega
    rw [unitsOf, if_neg small, List.cons_append, List.singleton_append,
      codePoints, if_pos (by rw [isHigh, isLow]; rfl), combined]

/-- The code points of written code points are these code points. -/
theorem codePoints_toUnits
    {points : List Nat}
    (scalars : ∀ point ∈ points, IsScalar point) :
    codePoints (toUnits points) = points := by
  induction points with
  | nil =>
      rfl
  | cons point rest inductionHypothesis =>
      rw [List.forall_mem_cons] at scalars
      have later := inductionHypothesis scalars.2
      unfold toUnits at later ⊢
      rw [List.flatMap_cons, codePoints_unitsOf_append scalars.1, later]

/-- The number of values that `length` bytes of UTF-8 can write. -/
def utf8Capacity : Nat → Nat
  | 0 => 0
  | 1 => 0x80
  | 2 => 0x800
  | 3 => 0x10000
  | _ => 0x200000

/--
A decoder that has read some bytes of a code point: the point will not need more
bytes than these and the ones that are still needed.
-/
def DecoderState.Within (state : DecoderState) (used : Nat) : Prop :=
  state.needed = 0 ∧ used = 0 ∨
    0 < state.needed ∧
      (state.point + 1) * 0x40 ^ state.needed ≤
        utf8Capacity (used + state.needed)

/-- A code point within a capacity is written in as many bytes. -/
theorem length_utf8Of_le
    {point length : Nat}
    (fits : point < utf8Capacity length) :
    (utf8Of point).length ≤ length := by
  unfold utf8Of
  match length, fits with
  | 1, fits =>
      rw [if_pos (by simpa [utf8Capacity] using fits)]
      simp
  | 2, fits =>
      have : point < 0x800 := fits
      split_ifs <;> simp
  | 3, fits =>
      have : point < 0x10000 := fits
      split_ifs <;> simp
  | length + 4, _ =>
      split_ifs <;> simp

/-- A leading byte gives a point of one byte or a state after one byte. -/
theorem leadingByte_within
    {byte : Nat} :
    (∀ point, leadingByte byte = some (.inl point) → point < 0x80) ∧
      ∀ state, leadingByte byte = some (.inr state) → state.Within 1 := by
  unfold leadingByte DecoderState.Within
  split_ifs with one two three four
  · refine ⟨?_, by simp⟩
    intro point same
    obtain rfl : byte = point := by simpa using same
    omega
  all_goals
    refine ⟨by simp, ?_⟩
    intro state same
    simp only [Option.some.injEq, Sum.inr.injEq] at same
  all_goals
    subst same
    right
    simp only [utf8Capacity]
    omega

/-- What the decoder gives is written in no more bytes than it read. -/
theorem length_utf8DecodeFrom
    {state : DecoderState}
    {used : Nat}
    (within : state.Within used)
    {bytes : Bytes}
    {points : List Nat}
    (decodes : utf8DecodeFrom state bytes = some points) :
    (utf8Encode points).length ≤ used + bytes.length := by
  induction bytes generalizing state used points with
  | nil =>
      simp only [utf8DecodeFrom, Option.ite_none_right_eq_some,
        Option.some.injEq] at decodes
      simp [← decodes.2, utf8Encode]
  | cons byte rest inductionHypothesis =>
      have fromStart :
          ∀ point points count,
            point < utf8Capacity count →
            (utf8DecodeFrom .start rest).map (point :: ·) = some points →
            (utf8Encode points).length ≤ count + rest.length := by
        intro point points count fits decodes
        obtain ⟨later, laterDecodes, rfl⟩ := Option.map_eq_some_iff.mp decodes
        have first := length_utf8Of_le fits
        have others : (utf8Encode later).length ≤ 0 + rest.length :=
          inductionHypothesis (.inl ⟨rfl, rfl⟩) laterDecodes
        simp only [utf8Encode, List.flatMap_cons, List.length_append] at others ⊢
        omega
      rw [List.length_cons]
      rw [utf8DecodeFrom] at decodes
      split_ifs at decodes with between inRange last
      · obtain ⟨-, rfl⟩ : state.needed = 0 ∧ used = 0 := by
          rcases within with start | ⟨positive, -⟩
          · exact start
          · omega
        have leads := @leadingByte_within byte.toNat
        split at decodes
        · cases decodes
        · rename_i point isPoint
          have := fromStart point points 1 (leads.1 point isPoint) decodes
          omega
        · rename_i next isState
          have := inductionHypothesis (leads.2 next isState) decodes
          omega
      · obtain ⟨positive, capacity⟩ := within.resolve_left fun start =>
          between start.1
        rw [last, Nat.pow_one] at capacity
        have fits :
            state.point * 0x40 + byte.toNat % 0x40 <
              utf8Capacity (used + 1) := by
          omega
        have := fromStart _ points (used + 1) fits decodes
        omega
      · obtain ⟨positive, capacity⟩ := within.resolve_left fun start =>
          between start.1
        have next : DecoderState.Within
            ⟨state.needed - 1, 0x80, 0xBF,
              state.point * 0x40 + byte.toNat % 0x40⟩ (used + 1) := by
          refine .inr ⟨by simp only; omega, ?_⟩
          have total : used + 1 + (state.needed - 1) = used + state.needed := by
            omega
          have power :
              0x40 ^ state.needed = 0x40 * 0x40 ^ (state.needed - 1) := by
            rw [← Nat.pow_succ', Nat.succ_eq_add_one,
              Nat.sub_add_cancel positive]
          simp only [total]
          refine Nat.le_trans ?_ capacity
          rw [power, ← Nat.mul_assoc]
          exact Nat.mul_le_mul_right _ (by omega)
        have := inductionHypothesis next decodes
        omega

/-- What was decoded is encoded in no more bytes. -/
theorem length_encode_of_decode
    {bytes : Bytes}
    {text : JsString}
    (decodes : TextDecoder.decode bytes = some text) :
    (TextEncoder.encode text).length ≤ bytes.length := by
  obtain ⟨points, pointsDecode, rfl⟩ := Option.map_eq_some_iff.mp decodes
  have scalars := utf8DecodeFrom_scalar (.inl rfl) pointsDecode
  have same : TextEncoder.encode (toUnits points) = utf8Encode points := by
    rw [TextEncoder.encode, codePoints_toUnits scalars]
  have bound : (utf8Encode points).length ≤ 0 + bytes.length :=
    length_utf8DecodeFrom (.inl ⟨rfl, rfl⟩) pointsDecode
  have stripped := length_encode_stripBom (toUnits points)
  rw [same] at stripped
  omega

end Unicode

end SinterDb
