import Mathlib

namespace SinterDb

/-!
# Byte strings and big-endian integers

A byte string is a list of octets.  Fixed-width unsigned integers are written
most significant octet first; a signed integer is written as its residue
modulo `256 ^ width`.  Every number format of the development is a combination
of these two codecs, so their round trips are proved once here.
-/

/-- A byte string. -/
abbrev Bytes := List UInt8

namespace BigEndian

/-- The `width` low-order octets of a number, most significant first. -/
def encode : Nat → Nat → Bytes
  | 0, _ => []
  | width + 1, value =>
      encode width (value / 256) ++ [UInt8.ofNat value]

/-- The number written by a byte string, most significant octet first. -/
def decode (bytes : Bytes) : Nat :=
  bytes.foldl (fun total byte => total * 256 + byte.toNat) 0

@[simp] theorem length_encode
    (width value : Nat) :
    (encode width value).length = width := by
  induction width generalizing value with
  | zero =>
      rfl
  | succ width inductionHypothesis =>
      simp [encode, inductionHypothesis]

/-- Reading one more octet shifts the number read so far. -/
theorem decode_concat
    (bytes : Bytes)
    (byte : UInt8) :
    decode (bytes ++ [byte]) = decode bytes * 256 + byte.toNat := by
  simp [decode, List.foldl_append]

/-- Decoding recovers the value modulo the capacity of the field. -/
theorem decode_encode
    (width value : Nat) :
    decode (encode width value) = value % 256 ^ width := by
  induction width generalizing value with
  | zero =>
      simp [encode, decode, Nat.mod_one]
  | succ width inductionHypothesis =>
      have split :
          value % 256 ^ (width + 1) =
            value % 256 + 256 * (value / 256 % 256 ^ width) := by
        rw [Nat.pow_succ', Nat.mod_mul]
      rw [encode, decode_concat, inductionHypothesis, split]
      simp only [UInt8.toNat_ofNat']
      omega

/-- A value that fits its field is recovered exactly. -/
theorem decode_encode_of_lt
    {width value : Nat}
    (fits : value < 256 ^ width) :
    decode (encode width value) = value := by
  rw [decode_encode, Nat.mod_eq_of_lt fits]

/-- Numbers that fit can be told apart by their bytes. -/
theorem encode_inj_of_lt
    {width left right : Nat}
    (leftFits : left < 256 ^ width)
    (rightFits : right < 256 ^ width)
    (same : encode width left = encode width right) :
    left = right := by
  rw [← decode_encode_of_lt leftFits, same, decode_encode_of_lt rightFits]

/-- A byte string of length `width` writes a number below `256 ^ width`. -/
theorem decode_lt
    (bytes : Bytes) :
    decode bytes < 256 ^ bytes.length := by
  induction bytes using List.reverseRecOn with
  | nil =>
      simp [decode]
  | append_singleton rest byte inductionHypothesis =>
      rw [decode_concat, List.length_append, List.length_singleton,
        Nat.pow_succ]
      have bound := byte.toNat_lt
      omega

/-- Encoding the number that a byte string writes gives the byte string. -/
theorem encode_decode
    (bytes : Bytes) :
    encode bytes.length (decode bytes) = bytes := by
  induction bytes using List.reverseRecOn with
  | nil =>
      rfl
  | append_singleton rest byte inductionHypothesis =>
      have bound := byte.toNat_lt
      rw [List.length_append, List.length_singleton, encode, decode_concat]
      have quotient :
          (decode rest * 256 + byte.toNat) / 256 = decode rest := by
        omega
      have last :
          UInt8.ofNat (decode rest * 256 + byte.toNat) = byte := by
        apply UInt8.toNat_inj.mp
        simp only [UInt8.toNat_ofNat']
        omega
      rw [quotient, last, inductionHypothesis]

/-- The `width` octets of a signed number, in two's complement. -/
def encodeSigned (width : Nat) (value : Int) : Bytes :=
  encode width (value % (256 ^ width : Nat)).toNat

/-- The signed number written by a byte string in two's complement. -/
def decodeSigned (bytes : Bytes) : Int :=
  let unsigned := decode bytes
  if 2 * unsigned < 256 ^ bytes.length then
    unsigned
  else
    (unsigned : Int) - (256 ^ bytes.length : Nat)

@[simp] theorem length_encodeSigned
    (width : Nat)
    (value : Int) :
    (encodeSigned width value).length = width := by
  simp [encodeSigned]

/-- A signed value inside the two's-complement range is recovered exactly. -/
theorem decodeSigned_encodeSigned
    {width : Nat}
    {value : Int}
    (lower : -((256 ^ width : Nat) : Int) ≤ 2 * value)
    (upper : 2 * value < ((256 ^ width : Nat) : Int)) :
    decodeSigned (encodeSigned width value) = value := by
  have capacity : 0 < (256 ^ width : Nat) := by positivity
  unfold decodeSigned encodeSigned
  rw [decode_encode, length_encode]
  generalize 256 ^ width = total at *
  by_cases negative : value < 0
  · have residue : value % (total : Int) = value + total := by
      rw [← Int.add_emod_right, Int.emod_eq_of_lt (by omega) (by omega)]
    rw [residue, Nat.mod_eq_of_lt (by omega)]
    dsimp only
    split <;> omega
  · have residue : value % (total : Int) = value :=
      Int.emod_eq_of_lt (by omega) (by omega)
    rw [residue, Nat.mod_eq_of_lt (by omega)]
    dsimp only
    split <;> omega

/-- The number read from a byte string lies in the two's-complement range. -/
theorem decodeSigned_bounds
    (bytes : Bytes) :
    -((256 ^ bytes.length : Nat) : Int) ≤ 2 * decodeSigned bytes ∧
      2 * decodeSigned bytes < ((256 ^ bytes.length : Nat) : Int) := by
  have bound := decode_lt bytes
  unfold decodeSigned
  generalize 256 ^ bytes.length = total at *
  dsimp only
  split <;> omega

end BigEndian

namespace Buffer

/-- The octets from `start` up to, not including, `stop`. -/
def subarray (bytes : Bytes) (start stop : Nat) : Bytes :=
  (bytes.drop start).take (stop - start)

/-- The unsigned big-endian number of `width` octets at `offset`. -/
def readUIntBE (bytes : Bytes) (offset width : Nat) : Nat :=
  BigEndian.decode (subarray bytes offset (offset + width))

/-- The front of two concatenated byte strings. -/
theorem subarray_front
    (front after : Bytes) :
    subarray (front ++ after) 0 front.length = front := by
  simp [subarray]

/-- The middle of three concatenated byte strings. -/
theorem subarray_middle
    (before middle after : Bytes)
    {start stop : Nat}
    (startsAt : before.length = start)
    (stopsAt : before.length + middle.length = stop) :
    subarray (before ++ (middle ++ after)) start stop = middle := by
  subst startsAt
  subst stopsAt
  simp [subarray]

/-- A part of the front does not depend on what follows. -/
theorem subarray_append
    (front more : Bytes)
    {start stop : Nat}
    (inFront : stop ≤ front.length) :
    subarray (front ++ more) start stop = subarray front start stop := by
  unfold subarray
  by_cases inside : start ≤ front.length
  · rw [List.drop_append_of_le_length inside,
      List.take_append_of_le_length (by rw [List.length_drop]; omega)]
  · rw [Nat.sub_eq_zero_of_le (by omega), List.take_zero, List.take_zero]

/-- A number in the front of some bytes does not depend on what follows. -/
theorem readUIntBE_append
    (front more : Bytes)
    {offset width : Nat}
    (inFront : offset + width ≤ front.length) :
    readUIntBE (front ++ more) offset width =
      readUIntBE front offset width := by
  unfold readUIntBE
  rw [subarray_append front more inFront]

/-- A number written between two byte strings is read back from there. -/
theorem readUIntBE_middle
    (before middle after : Bytes)
    {start width : Nat}
    (startsAt : before.length = start)
    (ofWidth : middle.length = width) :
    readUIntBE (before ++ (middle ++ after)) start width =
      BigEndian.decode middle := by
  unfold readUIntBE
  rw [subarray_middle before middle after startsAt (by omega)]

/-- Two byte strings of equal length that differ in exactly one octet. -/
def OneByteChanged (original changed : Bytes) : Prop :=
  ∃ before after : Bytes, ∃ old new : UInt8,
    old ≠ new ∧
      original = before ++ old :: after ∧
      changed = before ++ new :: after

namespace OneByteChanged

/-- A one-octet change keeps the length. -/
theorem length_eq
    {original changed : Bytes}
    (change : OneByteChanged original changed) :
    changed.length = original.length := by
  rcases change with ⟨before, after, old, new, -, rfl, rfl⟩
  simp

/-- A one-octet change is a change. -/
theorem ne
    {original changed : Bytes}
    (change : OneByteChanged original changed) :
    changed ≠ original := by
  rcases change with ⟨before, after, old, new, different, rfl, rfl⟩
  intro same
  have heads := List.append_cancel_left same
  exact different (List.cons.inj heads).1.symm

/-- A one-octet change of a concatenation changes exactly one of its parts. -/
theorem append_cases
    {first second changed : Bytes}
    (change : OneByteChanged (first ++ second) changed) :
    (∃ first', OneByteChanged first first' ∧ changed = first' ++ second) ∨
      (∃ second', OneByteChanged second second' ∧
        changed = first ++ second') := by
  rcases change with ⟨before, after, old, new, different, shape, rfl⟩
  rcases List.append_eq_append_iff.mp shape with
      ⟨middle, beforeShape, secondShape⟩ | ⟨middle, firstShape, restShape⟩
  · subst beforeShape
    right
    exact ⟨middle ++ new :: after,
      ⟨middle, after, old, new, different, secondShape, rfl⟩,
      by simp⟩
  · cases middle with
    | nil =>
        right
        refine ⟨new :: after, ⟨[], after, old, new, different, ?_, rfl⟩, ?_⟩
        · simpa using restShape.symm
        · simp [firstShape]
    | cons head rest =>
        simp only [List.cons_append, List.cons.injEq] at restShape
        obtain ⟨rfl, rfl⟩ := restShape
        left
        exact ⟨before ++ new :: rest,
          ⟨before, rest, old, new, different, firstShape, rfl⟩,
          by simp⟩

end OneByteChanged

end Buffer

end SinterDb
