import SinterDb.Lib.Bytes

namespace SinterDb

/-!
# Numbers in the binary64 format

A number is NaN, an infinity, or finite with a sign, a biased exponent and a
fraction.  A finite number is a whole multiple of `2 ^ -1074`, so arithmetic is
exact integer arithmetic on these multiples followed by one rounding, to
nearest with ties to even.
-/

/-- There is an exponent. -/
instance instNeZeroExponents : NeZero 2047 :=
  ⟨by decide⟩

/-- There is a fraction. -/
instance instNeZeroFractions : NeZero (2 ^ 52) :=
  ⟨by decide⟩

/-- A JavaScript number; all NaNs are the same value. -/
inductive JsNumber where
  | nan
  | infinity (negative : Bool)
  | finite (negative : Bool) (exponent : Fin 2047) (fraction : Fin (2 ^ 52))
  deriving Repr, DecidableEq

namespace JsNumber

/-- The significand of a finite number, with its hidden bit. -/
def significand (exponent fraction : Nat) : Nat :=
  if exponent = 0 then fraction else 2 ^ 52 + fraction

/-- The absolute value of a finite number, in units of `2 ^ -1074`. -/
def magnitude (exponent fraction : Nat) : Nat :=
  significand exponent fraction * 2 ^ (exponent - 1)

/-- The value of a finite number, in units of `2 ^ -1074`. -/
def scaled (negative : Bool) (exponent fraction : Nat) : Int :=
  if negative then
    -(magnitude exponent fraction : Int)
  else
    magnitude exponent fraction

/-- The number with a given significand, in units of `2 ^ (power - 1074)`. -/
def make (negative : Bool) (significand power : Nat) : JsNumber :=
  if small : significand < 2 ^ 52 then
    .finite negative 0 ⟨significand, small⟩
  else if inRange : power + 1 < 2047 ∧ significand - 2 ^ 52 < 2 ^ 52 then
    .finite negative ⟨power + 1, inRange.1⟩
      ⟨significand - 2 ^ 52, inRange.2⟩
  else
    .infinity negative

/-- The number nearest to `numerator / denominator` units of `2 ^ -1074`. -/
def roundRatio (negative : Bool) (numerator denominator : Nat) : JsNumber :=
  let power := Nat.log2 (numerator / denominator) - 52
  let unit := denominator * 2 ^ power
  let quotient := numerator / unit
  let remainder := numerator % unit
  let rounded :=
    if unit < 2 * remainder ∨
        2 * remainder = unit ∧ quotient % 2 = 1 then
      quotient + 1
    else
      quotient
  if rounded = 2 ^ 53 then
    make negative (2 ^ 52) (power + 1)
  else
    make negative rounded power

/-- The units of `2 ^ -1074` in one. -/
def one : Nat := 2 ^ 1074

/-- `Number(value)` for an integer. -/
def ofInt (value : Int) : JsNumber :=
  roundRatio (value < 0) (value.natAbs * one) 1

/-- The value of an integral number. -/
def toInt? : JsNumber → Option Int
  | .finite negative exponent fraction =>
      if magnitude exponent fraction % one = 0 then
        some (scaled negative exponent fraction / one)
      else
        none
  | _ => none

/-- Positive zero. -/
def zero : JsNumber := .finite false 0 0

/-- Negative zero. -/
def negativeZero : JsNumber := .finite true 0 0

/-- `Number.isFinite`. -/
def isFinite : JsNumber → Bool
  | .finite _ _ _ => true
  | _ => false

/-- `Number.isNaN`. -/
def isNaN : JsNumber → Bool
  | .nan => true
  | _ => false

/-- `Number.isSafeInteger`. -/
def isSafeInteger (number : JsNumber) : Bool :=
  match number.toInt? with
  | some value => decide (-(2 ^ 53 - 1) ≤ value ∧ value ≤ 2 ^ 53 - 1)
  | none => false

/-- The bits of a number; NaN has the canonical ones. -/
def toBits : JsNumber → Nat
  | .nan => 0x7ff8000000000000
  | .infinity negative => negative.toNat * 2 ^ 63 + 2047 * 2 ^ 52
  | .finite negative exponent fraction =>
      negative.toNat * 2 ^ 63 + exponent * 2 ^ 52 + fraction

/-- The number with the given bits. -/
def ofBits (bits : Nat) : JsNumber :=
  let negative := decide (bits / 2 ^ 63 % 2 = 1)
  let fraction := bits % 2 ^ 52
  if inRange : bits / 2 ^ 52 % 2048 < 2047 then
    .finite negative ⟨bits / 2 ^ 52 % 2048, inRange⟩
      ⟨fraction, Nat.mod_lt _ (Nat.two_pow_pos 52)⟩
  else if fraction = 0 then
    .infinity negative
  else
    .nan

/-- A position on the number line: the side of an infinity, then the units. -/
def position : JsNumber → Option (Int × Int)
  | .nan => none
  | .infinity negative => some (if negative then -1 else 1, 0)
  | .finite negative exponent fraction =>
      some (0, scaled negative exponent fraction)

/-- `+` on numbers. -/
def add : JsNumber → JsNumber → JsNumber
  | .nan, _ => .nan
  | _, .nan => .nan
  | .infinity first, .infinity second =>
      if first = second then .infinity first else .nan
  | .infinity first, _ => .infinity first
  | _, .infinity second => .infinity second
  | .finite first firstExponent firstFraction,
    .finite second secondExponent secondFraction =>
      let sum :=
        scaled first firstExponent firstFraction +
          scaled second secondExponent secondFraction
      roundRatio
        (if sum = 0 then first && second else decide (sum < 0))
        sum.natAbs 1

/-- `*` on numbers. -/
def mul : JsNumber → JsNumber → JsNumber
  | .nan, _ => .nan
  | _, .nan => .nan
  | .infinity first, .infinity second => .infinity (first != second)
  | .infinity first, .finite second exponent fraction =>
      if magnitude exponent fraction = 0 then
        .nan
      else
        .infinity (first != second)
  | .finite first exponent fraction, .infinity second =>
      if magnitude exponent fraction = 0 then
        .nan
      else
        .infinity (first != second)
  | .finite first firstExponent firstFraction,
    .finite second secondExponent secondFraction =>
      roundRatio (first != second)
        (magnitude firstExponent firstFraction *
          magnitude secondExponent secondFraction)
        one

/-- `/` on numbers. -/
def div : JsNumber → JsNumber → JsNumber
  | .nan, _ => .nan
  | _, .nan => .nan
  | .infinity _, .infinity _ => .nan
  | .infinity first, .finite second _ _ => .infinity (first != second)
  | .finite first _ _, .infinity second => .finite (first != second) 0 0
  | .finite first firstExponent firstFraction,
    .finite second secondExponent secondFraction =>
      let top := magnitude firstExponent firstFraction
      let bottom := magnitude secondExponent secondFraction
      if bottom = 0 then
        if top = 0 then .nan else .infinity (first != second)
      else
        roundRatio (first != second) (top * one) bottom

/-- `Math.ceil` of a number that is not negative, as a natural number. -/
def ceilNat : JsNumber → Nat
  | .finite false exponent fraction =>
      (magnitude exponent fraction + (one - 1)) / one
  | _ => 0

/-- The bits of a number fit in 64 bits. -/
theorem toBits_lt
    (number : JsNumber) :
    number.toBits < 2 ^ 64 := by
  cases number with
  | nan =>
      decide
  | infinity negative =>
      cases negative <;> decide
  | finite negative exponent fraction =>
      have exponentBound := exponent.isLt
      have fractionBound := fraction.isLt
      cases negative <;>
        simp only [toBits, Bool.toNat_true, Bool.toNat_false] <;> omega

/-- The bits of a number give the number back. -/
theorem ofBits_toBits
    (number : JsNumber) :
    ofBits number.toBits = number := by
  cases number with
  | nan =>
      decide
  | infinity negative =>
      cases negative <;> decide
  | finite negative exponent fraction =>
      have exponentBound := exponent.isLt
      have fractionBound := fraction.isLt
      have sign :
          decide ((finite negative exponent fraction).toBits / 2 ^ 63 % 2 =
            1) = negative := by
        cases negative with
        | false =>
            apply decide_eq_false
            simp only [toBits, Bool.toNat_false]
            omega
        | true =>
            apply decide_eq_true
            simp only [toBits, Bool.toNat_true]
            omega
      have middle :
          (finite negative exponent fraction).toBits / 2 ^ 52 % 2048 =
            exponent := by
        cases negative <;>
          simp only [toBits, Bool.toNat_true, Bool.toNat_false] <;> omega
      have low :
          (finite negative exponent fraction).toBits % 2 ^ 52 =
            fraction := by
        cases negative <;>
          simp only [toBits, Bool.toNat_true, Bool.toNat_false] <;> omega
      unfold ofBits
      simp only [sign, middle, low, exponentBound, dif_pos]

/-- A significand below `2 ^ 53` has at most 53 bits. -/
theorem significand_lt
    {exponent fraction : Nat}
    (bound : fraction < 2 ^ 52) :
    significand exponent fraction < 2 ^ 53 := by
  unfold significand
  split_ifs <;> omega

/-- Only the all-zero fields have no significand. -/
theorem significand_eq_zero
    {exponent fraction : Nat} :
    significand exponent fraction = 0 ↔ exponent = 0 ∧ fraction = 0 := by
  unfold significand
  split_ifs with subnormal
  · simp [subnormal]
  · constructor
    · intro none
      omega
    · intro fields
      exact (subnormal fields.1).elim

/-- Rounding picks the power that a representable value is written with. -/
theorem log2_magnitude
    {exponent fraction : Nat}
    (bound : fraction < 2 ^ 52) :
    Nat.log2 (magnitude exponent fraction) - 52 = exponent - 1 := by
  by_cases subnormal : exponent = 0
  · have shape : magnitude exponent fraction = fraction := by
      simp [magnitude, significand, subnormal]
    rw [shape, subnormal]
    by_cases isZero : fraction = 0
    · simp [isZero]
    · have := (Nat.log2_lt isZero).mpr bound
      omega
  · have shape :
        magnitude exponent fraction =
          (2 ^ 52 + fraction) * 2 ^ (exponent - 1) := by
      simp [magnitude, significand, subnormal]
    have log :
        Nat.log2 (magnitude exponent fraction) = 52 + (exponent - 1) := by
      rw [shape, Nat.log2_eq_iff (by positivity)]
      constructor
      · rw [Nat.pow_add]
        exact Nat.mul_le_mul_right _ (by omega)
      · rw [show 52 + (exponent - 1) + 1 = 53 + (exponent - 1) by omega,
          Nat.pow_add]
        exact Nat.mul_lt_mul_of_pos_right (by omega) (Nat.two_pow_pos _)
    omega

/-- Rounding a representable value changes nothing. -/
theorem roundRatio_magnitude
    (negative : Bool)
    (exponent : Fin 2047)
    (fraction : Fin (2 ^ 52)) :
    roundRatio negative (magnitude exponent fraction) 1 =
      .finite negative exponent fraction := by
  have fractionBound := fraction.isLt
  have exponentBound := exponent.isLt
  have power :
      Nat.log2 (magnitude exponent fraction / 1) - 52 = exponent - 1 := by
    rw [Nat.div_one, log2_magnitude fractionBound]
  have unitPositive : 0 < 2 ^ ((exponent : Nat) - 1) := Nat.two_pow_pos _
  have quotient :
      magnitude exponent fraction / (1 * 2 ^ ((exponent : Nat) - 1)) =
        significand exponent fraction := by
    rw [Nat.one_mul, magnitude, Nat.mul_div_cancel _ unitPositive]
  have remainder :
      magnitude exponent fraction % (1 * 2 ^ ((exponent : Nat) - 1)) = 0 := by
    rw [Nat.one_mul, magnitude, Nat.mul_mod_left]
  have exactly :
      ¬ (1 * 2 ^ ((exponent : Nat) - 1) < 2 * 0 ∨
        2 * 0 = 1 * 2 ^ ((exponent : Nat) - 1) ∧
          significand exponent fraction % 2 = 1) := by
    omega
  have bound := @significand_lt exponent fraction fractionBound
  unfold roundRatio
  simp only [power, quotient, remainder]
  rw [if_neg exactly, if_neg (by omega)]
  unfold make significand
  by_cases subnormal : (exponent : Nat) = 0
  · have isZero : exponent = 0 := Fin.ext subnormal
    simp [isZero]
  · have power : (exponent : Nat) - 1 + 1 = exponent := by omega
    simp [subnormal, power]

/-- One is positive. -/
theorem one_pos : 0 < one := by
  unfold one
  exact Nat.two_pow_pos _

/-- An integral number other than negative zero is rebuilt from its value. -/
theorem ofInt_toInt
    {number : JsNumber}
    {value : Int}
    (integral : number.toInt? = some value)
    (signed : number ≠ negativeZero) :
    ofInt value = number := by
  cases number with
  | nan =>
      cases integral
  | infinity negative =>
      cases integral
  | finite negative exponent fraction =>
      simp only [toInt?, Option.ite_none_right_eq_some, Option.some.injEq]
        at integral
      obtain ⟨whole, rfl⟩ := integral
      obtain ⟨count, multiple⟩ := Nat.dvd_of_mod_eq_zero whole
      have positive : (0 : Int) < one := Int.natCast_pos.mpr one_pos
      have unsigned :
          (scaled negative exponent fraction / one).natAbs * one =
            magnitude exponent fraction := by
        cases negative with
        | false =>
            simp only [scaled, Bool.false_eq_true, if_false, multiple,
              Nat.cast_mul]
            rw [Int.mul_ediv_cancel_left _ (ne_of_gt positive),
              Int.natAbs_natCast, Nat.mul_comm]
        | true =>
            simp only [scaled, if_true, multiple, Nat.cast_mul]
            rw [← Int.mul_neg,
              Int.mul_ediv_cancel_left _ (ne_of_gt positive), Int.natAbs_neg,
              Int.natAbs_natCast, Nat.mul_comm]
      have sign :
          decide (scaled negative exponent fraction / one < 0) =
            negative := by
        cases negative with
        | false =>
            simp only [scaled, Bool.false_eq_true, if_false,
              decide_eq_false_iff_not, not_lt]
            exact Int.ediv_nonneg (Int.natCast_nonneg _) positive.le
        | true =>
            simp only [scaled, if_true, decide_eq_true_eq]
            -- Only zero is not below zero, and it would be negative zero.
            have nonzero : magnitude exponent fraction ≠ 0 := by
              intro isZero
              apply signed
              have noSignificand : significand exponent fraction = 0 := by
                simpa [magnitude] using isZero
              obtain ⟨noExponent, noFraction⟩ :=
                significand_eq_zero.mp noSignificand
              have noExponent : exponent = 0 := Fin.ext noExponent
              have noFraction : fraction = 0 := Fin.ext noFraction
              rw [noExponent, noFraction, negativeZero]
            apply Int.ediv_neg_of_neg_of_pos _ positive
            omega
      unfold ofInt
      rw [unsigned, sign, roundRatio_magnitude]

/-- Every integer below `2 ^ 53` is representable. -/
theorem exists_magnitude
    {value : Nat}
    (bound : value < 2 ^ 53) :
    ∃ (exponent : Fin 2047) (fraction : Fin (2 ^ 52)),
      magnitude exponent fraction = value * one := by
  by_cases isZero : value = 0
  · exact ⟨0, 0, by simp [isZero, magnitude, significand]⟩
  · have few : Nat.log2 value < 53 := (Nat.log2_lt isZero).mpr bound
    have lower : 2 ^ Nat.log2 value ≤ value := Nat.log2_self_le isZero
    have upper : value < 2 ^ (Nat.log2 value + 1) := Nat.lt_log2_self
    have low : 2 ^ 52 ≤ value * 2 ^ (52 - Nat.log2 value) := by
      calc
        2 ^ 52 = 2 ^ Nat.log2 value * 2 ^ (52 - Nat.log2 value) := by
          rw [← Nat.pow_add]
          congr 1
          omega
        _ ≤ _ := Nat.mul_le_mul_right _ lower
    have high : value * 2 ^ (52 - Nat.log2 value) < 2 ^ 53 := by
      calc
        _ < 2 ^ (Nat.log2 value + 1) * 2 ^ (52 - Nat.log2 value) :=
          Nat.mul_lt_mul_of_pos_right upper (Nat.two_pow_pos _)
        _ = 2 ^ 53 := by
          rw [← Nat.pow_add]
          congr 1
          omega
    refine ⟨⟨1023 + Nat.log2 value, by omega⟩,
      ⟨value * 2 ^ (52 - Nat.log2 value) - 2 ^ 52, by omega⟩, ?_⟩
    have shape :
        2 ^ 52 + (value * 2 ^ (52 - Nat.log2 value) - 2 ^ 52) =
          value * 2 ^ (52 - Nat.log2 value) := by
      omega
    have powers :
        2 ^ (52 - Nat.log2 value) * 2 ^ (1023 + Nat.log2 value - 1) = one := by
      have total :
          52 - Nat.log2 value + (1023 + Nat.log2 value - 1) = 1074 := by
        omega
      rw [← Nat.pow_add, total, one]
    rw [magnitude, significand, if_neg (by simp only; omega)]
    simp only [shape]
    rw [Nat.mul_assoc, powers]

/-- An integer below `2 ^ 53` is a number with that value. -/
theorem toInt_ofInt
    {value : Int}
    (bound : value.natAbs < 2 ^ 53) :
    (ofInt value).toInt? = some value ∧ ofInt value ≠ negativeZero := by
  obtain ⟨exponent, fraction, same⟩ := exists_magnitude bound
  have shape :
      ofInt value = .finite (decide (value < 0)) exponent fraction := by
    rw [ofInt, ← same, roundRatio_magnitude]
  have positive : (0 : Int) < one := Int.natCast_pos.mpr one_pos
  have whole :
      scaled (decide (value < 0)) exponent fraction = value * one := by
    unfold scaled
    rw [same, Nat.cast_mul]
    by_cases negative : value < 0
    · simp only [negative, decide_true, if_true]
      rw [Int.ofNat_natAbs_of_nonpos (by omega)]
      ring
    · simp only [negative, decide_false, Bool.false_eq_true, if_false]
      rw [Int.natAbs_of_nonneg (by omega)]
  refine ⟨?_, ?_⟩
  · rw [shape, toInt?, if_pos (by rw [same, Nat.mul_mod_left]), whole,
      Int.mul_ediv_cancel _ (ne_of_gt positive)]
  · rw [shape, negativeZero]
    intro zero
    simp only [JsNumber.finite.injEq, decide_eq_true_eq] at zero
    obtain ⟨negative, rfl, rfl⟩ := zero
    rw [show scaled (decide (value < 0)) (0 : Fin 2047) (0 : Fin (2 ^ 52)) = 0
      by simp [scaled, magnitude, significand]] at whole
    have : value * one ≠ 0 := by
      exact Int.mul_ne_zero (by omega) (ne_of_gt positive)
    omega

end JsNumber

end SinterDb
