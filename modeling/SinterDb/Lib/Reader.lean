import SinterDb.Lib.Result
import SinterDb.Lib.Unicode

namespace SinterDb

open Unicode

/-!
# Binary readers

A reader takes values from the front of a byte string, or fails.  Two rules
carry the proofs about a format: what a reader makes of given bytes, whatever
follows them, and that more bytes behind the ones it has read change nothing.
-/

/-- A computation that takes bytes from the front of its input. -/
abbrev Reader (ε α : Type) := StateT Bytes (Except ε) α

namespace Reader

variable {ε α β : Type}

/-- So many bytes. -/
def bytes (unexpected : ε) (length : Nat) : Reader ε Bytes := fun input =>
  if input.length < length then
    .error unexpected
  else
    .ok (input.take length, input.drop length)

/-- A big-endian number of so many bytes. -/
def uint (unexpected : ε) (width : Nat) : Reader ε Nat := do
  let digits ← bytes unexpected width
  return BigEndian.decode digits

/-- What the bytes of a text are decoded to. -/
def decodeText (invalid : ε) (raw : Bytes) : Except ε JsString :=
  match TextDecoder.decode raw with
  | some text => .ok text
  | none => .error invalid

/-- A text that is not empty, behind its length in two bytes. -/
def text (unexpected empty invalid : ε) : Reader ε JsString := do
  let length ← uint unexpected 2
  if length = 0 then
    throw empty
  let raw ← bytes unexpected length
  decodeText invalid raw

/-- A number of values in a row. -/
def times (read : Reader ε α) : Nat → Reader ε (List α)
  | 0 => return []
  | count + 1 => do
      let value ← read
      let later ← times read count
      return value :: later

/-- Another error in the place of the one that was thrown. -/
def mapError {δ : Type} (change : ε → δ) (read : Reader ε α) : Reader δ α :=
  fun input => (read input).mapError change

/-- What a reader makes of given bytes, whatever follows them. -/
def Reads
    (read : Reader ε α)
    (data : Bytes)
    (result : Except ε α) : Prop :=
  ∀ rest, read (data ++ rest) = result.map (·, rest)

/-- More bytes behind the ones that a reader has read change nothing. -/
def IsLocal (read : Reader ε α) : Prop :=
  ∀ input value rest extra,
    read input = .ok (value, rest) →
      read (input ++ extra) = .ok (value, rest ++ extra)

section Reads

variable
  {read : Reader ε α}
  {next : α → Reader ε β}
  {front back : Bytes}

/-- A reader that takes nothing. -/
theorem Reads.pure
    (value : α) :
    Reads (pure value : Reader ε α) [] (.ok value) := fun _ => rfl

/-- A result that was computed before. -/
theorem Reads.lift
    (result : Except ε α) :
    Reads (liftM result : Reader ε α) [] result := by
  intro rest
  cases result <;> rfl

/-- A reader that goes on. -/
theorem Reads.bind
    {value : α}
    {result : Except ε β}
    (first : Reads read front (.ok value))
    (later : Reads (next value) back result) :
    Reads (read >>= next) (front ++ back) result := by
  intro rest
  have reads := first (back ++ rest)
  change (read ((front ++ back) ++ rest) >>= fun output =>
    next output.1 output.2) = _
  rw [List.append_assoc, reads]
  exact later rest

/-- A reader that goes on without taking anything more. -/
theorem Reads.bind_nil
    {value : α}
    {result : Except ε β}
    (first : Reads read front (.ok value))
    (later : Reads (next value) [] result) :
    Reads (read >>= next) front result := by
  simpa using first.bind later

/-- A reader that fails does not go on. -/
theorem Reads.bind_error
    {error : ε}
    (first : Reads read front (.error error))
    (back : Bytes) :
    Reads (read >>= next) (front ++ back) (.error error) := by
  intro rest
  have reads := first (back ++ rest)
  change (read ((front ++ back) ++ rest) >>= fun output =>
    next output.1 output.2) = _
  rw [List.append_assoc, reads]
  rfl

/-- Some bytes are read as they are. -/
theorem reads_bytes
    (unexpected : ε)
    (data : Bytes) :
    Reads (bytes unexpected data.length) data (.ok data) := by
  intro rest
  simp [bytes, Except.map]

/-- A number that fits its bytes is read back. -/
theorem reads_uint
    (unexpected : ε)
    {width value : Nat}
    (fits : value < 256 ^ width) :
    Reads (uint unexpected width) (BigEndian.encode width value)
      (.ok value) := by
  have digits := reads_bytes unexpected (BigEndian.encode width value)
  rw [BigEndian.length_encode] at digits
  unfold uint
  refine digits.bind_nil ?_
  rw [BigEndian.decode_encode_of_lt fits]
  exact Reads.pure value

/-- A text is read as what its bytes are decoded to. -/
theorem reads_text
    (unexpected empty invalid : ε)
    {value result : JsString}
    (decodes : TextDecoder.decode (TextEncoder.encode value) = some result)
    (notEmpty : 0 < (TextEncoder.encode value).length)
    (short : (TextEncoder.encode value).length < 2 ^ 16) :
    Reads (text unexpected empty invalid)
      (BigEndian.encode 2 (TextEncoder.encode value).length ++
        TextEncoder.encode value)
      (.ok result) := by
  have isText :
      decodeText invalid (TextEncoder.encode value) = .ok result := by
    rw [decodeText, decodes]
  unfold text
  refine (reads_uint unexpected (by simpa using short)).bind ?_
  rw [if_neg (Nat.ne_of_gt notEmpty)]
  refine (reads_bytes unexpected (TextEncoder.encode value)).bind_nil ?_
  rw [← isText]
  exact Reads.lift _

/-- Values in a row are read one after the other. -/
theorem reads_times
    {item : Type}
    {encode : item → Bytes}
    {restore : item → Except ε α}
    {items : List item}
    (reads : ∀ value ∈ items, Reads read (encode value) (restore value)) :
    Reads (times read items.length) (items.flatMap encode)
      (items.mapM restore) := by
  induction items with
  | nil =>
      exact Reads.pure []
  | cons value items inductionHypothesis =>
      obtain ⟨first, later⟩ := List.forall_mem_cons.mp reads
      rw [List.flatMap_cons, List.length_cons, List.mapM_cons]
      cases restores : restore value with
      | error error =>
          rw [restores] at first
          exact first.bind_error _
      | ok result =>
          rw [restores] at first
          refine first.bind ?_
          have others := inductionHypothesis later
          cases restoresLater : items.mapM restore with
          | error error =>
              rw [restoresLater] at others
              rw [← List.append_nil (items.flatMap encode)]
              exact others.bind_error []
          | ok results =>
              rw [restoresLater] at others
              exact others.bind_nil (Reads.pure (result :: results))

end Reads

section Local

variable
  {read : Reader ε α}
  {next : α → Reader ε β}

/-- A reader that takes nothing is local. -/
theorem IsLocal.pure
    (value : α) :
    IsLocal (pure value : Reader ε α) := by
  rintro input result rest extra ⟨⟩
  rfl

/-- A result that was computed before is local. -/
theorem IsLocal.lift
    (result : Except ε α) :
    IsLocal (liftM result : Reader ε α) := by
  intro input value rest extra reads
  cases result with
  | error error =>
      cases reads
  | ok result =>
      cases reads
      rfl

/-- Failing is local. -/
theorem IsLocal.throw
    (error : ε) :
    IsLocal (throw error : Reader ε α) := by
  rintro input value rest extra ⟨⟩

/-- Local readers in sequence are local. -/
theorem IsLocal.bind
    (first : IsLocal read)
    (later : ∀ value, IsLocal (next value)) :
    IsLocal (read >>= next) := by
  intro input value rest extra reads
  obtain ⟨⟨middle, remaining⟩, isFirst, isLater⟩ := Result.bind_eq_ok.mp reads
  change (read (input ++ extra) >>= fun output => next output.1 output.2) = _
  rw [first input middle remaining extra isFirst]
  exact later middle remaining value rest extra isLater

/-- Another error leaves a reader local. -/
theorem IsLocal.mapError
    {δ : Type}
    {change : ε → δ}
    (isLocal : IsLocal read) :
    IsLocal (read.mapError change) := by
  intro input value rest extra reads
  unfold Reader.mapError at reads ⊢
  cases isResult : read input with
  | error error =>
      rw [isResult] at reads
      cases reads
  | ok output =>
      rw [isResult] at reads
      obtain rfl := Except.ok.inj reads
      rw [isLocal input value rest extra isResult]
      rfl

/-- Taking bytes is local. -/
theorem isLocal_bytes
    (unexpected : ε)
    (length : Nat) :
    IsLocal (bytes unexpected length) := by
  intro input value rest extra reads
  unfold bytes at reads ⊢
  split_ifs at reads with tooShort
  obtain ⟨rfl, rfl⟩ := Prod.mk.inj (Except.ok.inj reads)
  rw [if_neg (by simp; omega), List.take_append_of_le_length (by omega),
    List.drop_append_of_le_length (by omega)]

/-- Reading a number is local. -/
theorem isLocal_uint
    (unexpected : ε)
    (width : Nat) :
    IsLocal (uint unexpected width) :=
  (isLocal_bytes unexpected width).bind fun _ => .pure _

/-- Reading a text is local. -/
theorem isLocal_text
    (unexpected empty invalid : ε) :
    IsLocal (text unexpected empty invalid) := by
  refine (isLocal_uint unexpected 2).bind fun length => ?_
  split_ifs
  · exact (IsLocal.throw empty).bind fun _ =>
      (isLocal_bytes unexpected length).bind fun _ => .lift _
  · exact (isLocal_bytes unexpected length).bind fun _ => .lift _

/-- Reading values in a row is local. -/
theorem isLocal_times
    (isLocal : IsLocal read)
    (count : Nat) :
    IsLocal (times read count) := by
  induction count with
  | zero =>
      exact .pure []
  | succ count inductionHypothesis =>
      exact isLocal.bind fun _ =>
        inductionHypothesis.bind fun _ => .pure _

end Local

end Reader

end SinterDb
