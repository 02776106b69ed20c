import SinterDb.Lib.Bytes

namespace SinterDb

/-!
# The CRC-32 checksum

The reflected CRC-32 of ISO 3309 (polynomial `0xEDB88320`, initial value and
final mask all ones), folded over the input one octet at a time.  Each fold
step is injective both in the running register and in the octet, so two inputs
of equal length that differ in exactly one octet have different checksums.
-/

namespace Crc32

/-- The reflected generator polynomial. -/
def polynomial : BitVec 32 := 0xEDB88320#32

/-- Shift one bit out of the register. -/
def shiftBit (register : BitVec 32) : BitVec 32 :=
  if register.getLsbD 0 then
    (register >>> 1) ^^^ polynomial
  else
    register >>> 1

/-- Shift the given number of bits out of the register. -/
def shiftBits : Nat → BitVec 32 → BitVec 32
  | 0, register => register
  | count + 1, register => shiftBits count (shiftBit register)

/-- Absorb one octet. -/
def absorb (register : BitVec 32) (byte : UInt8) : BitVec 32 :=
  shiftBits 8 (register ^^^ byte.toBitVec.setWidth 32)

/-- Absorb a byte string. -/
def absorbAll (register : BitVec 32) (bytes : Bytes) : BitVec 32 :=
  bytes.foldl absorb register

/-- The CRC-32 of a byte string, as an unsigned 32-bit number. -/
def crc32 (bytes : Bytes) : Nat :=
  (~~~ absorbAll (BitVec.allOnes 32) bytes).toNat

/-- The CRC-32 that goes on from an earlier one. -/
def crc32From (checksum : Nat) (bytes : Bytes) : Nat :=
  (~~~ absorbAll (~~~ BitVec.ofNat 32 checksum) bytes).toNat

/-- The bit shifted out can be read off the top of the new register. -/
theorem shiftBit_top
    (register : BitVec 32) :
    (shiftBit register).getLsbD 31 = register.getLsbD 0 := by
  have empty : (register >>> 1).getLsbD 31 = false := by
    simp
  unfold shiftBit
  split
  · rename_i low
    rw [BitVec.getLsbD_xor, empty, low]
    rfl
  · rename_i low
    rw [empty]
    exact (Bool.eq_false_of_not_eq_true low).symm

/-- Shifting one bit loses no information. -/
theorem shiftBit_injective : Function.Injective shiftBit := by
  intro first second same
  have lowSame : first.getLsbD 0 = second.getLsbD 0 := by
    rw [← shiftBit_top, ← shiftBit_top, same]
  have shiftedSame : first >>> 1 = second >>> 1 := by
    unfold shiftBit at same
    rw [← lowSame] at same
    split at same
    · exact (BitVec.xor_left_inj _).mp same
    · exact same
  apply BitVec.eq_of_getLsbD_eq
  intro index bound
  cases index with
  | zero =>
      exact lowSame
  | succ index =>
      have bit := congrArg (fun shifted => shifted.getLsbD index) shiftedSame
      simpa [BitVec.getLsbD_ushiftRight, Nat.add_comm] using bit

/-- Shifting any number of bits loses no information. -/
theorem shiftBits_injective
    (count : Nat) :
    Function.Injective (shiftBits count) := by
  induction count with
  | zero =>
      exact Function.injective_id
  | succ count inductionHypothesis =>
      intro first second same
      exact shiftBit_injective (inductionHypothesis same)

/-- Absorbing a fixed octet is injective in the register. -/
theorem absorb_injective_register
    (byte : UInt8) :
    Function.Injective fun register => absorb register byte := by
  intro first second same
  have unmasked := shiftBits_injective 8 same
  exact (BitVec.xor_left_inj _).mp unmasked

/-- Absorbing into a fixed register is injective in the octet. -/
theorem absorb_injective_byte
    (register : BitVec 32) :
    Function.Injective (absorb register) := by
  intro first second same
  have unmasked := (BitVec.xor_right_inj _).mp (shiftBits_injective 8 same)
  apply UInt8.toNat_inj.mp
  have values := congrArg BitVec.toNat unmasked
  have firstBound := first.toNat_lt
  have secondBound := second.toNat_lt
  simp only [BitVec.toNat_setWidth, UInt8.toNat_toBitVec] at values
  omega

/-- Absorbing a fixed byte string is injective in the register. -/
theorem absorbAll_injective
    (bytes : Bytes) :
    Function.Injective fun register => absorbAll register bytes := by
  induction bytes with
  | nil =>
      exact Function.injective_id
  | cons byte rest inductionHypothesis =>
      intro first second same
      exact absorb_injective_register byte (inductionHypothesis same)

/-- The checksum is an unsigned 32-bit number. -/
theorem crc32_lt
    (bytes : Bytes) :
    crc32 bytes < 256 ^ 4 :=
  (~~~ absorbAll (BitVec.allOnes 32) bytes).isLt

/-- Going on from the checksum of a front part gives that of the whole. -/
theorem crc32From_crc32
    (front back : Bytes) :
    crc32From (crc32 front) back = crc32 (front ++ back) := by
  unfold crc32From crc32
  rw [BitVec.ofNat_toNat, BitVec.setWidth_eq, BitVec.not_not, absorbAll,
    absorbAll, absorbAll, List.foldl_append]

/-- Changing exactly one octet changes the checksum. -/
theorem crc32_ne
    {original changed : Bytes}
    (change : Buffer.OneByteChanged original changed) :
    crc32 changed ≠ crc32 original := by
  rcases change with ⟨before, after, old, new, different, rfl, rfl⟩
  intro same
  apply different
  have registers :
      absorbAll (BitVec.allOnes 32) (before ++ new :: after) =
        absorbAll (BitVec.allOnes 32) (before ++ old :: after) := by
    rw [← BitVec.not_not (b := absorbAll _ (before ++ new :: after)),
      BitVec.eq_of_toNat_eq same, BitVec.not_not]
  simp only [absorbAll, List.foldl_append, List.foldl_cons] at registers
  exact (absorb_injective_byte _ (absorbAll_injective after registers)).symm

end Crc32

end SinterDb
