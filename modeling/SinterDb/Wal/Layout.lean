import SinterDb.Wal.WriteAheadLog

namespace SinterDb.Wal

/-!
# What the bytes of a log directory hold

A layout is the list of records each segment holds.  The bytes of a directory
that a log wrote are determined by its layout, and scanning them gives the
layout back.  `LogHolds` relates an open log to a layout and to the records it
has queued in memory.
-/

/-- The encodings of consecutive records. -/
def encodeRecords (records : List WalRecord) : Bytes :=
  records.flatMap fun record =>
    recordBytes record.lsn record.type record.payload

/-- Records in range whose sequence numbers count up from `first`. -/
def Contiguous : Nat → List WalRecord → Prop
  | _, [] => True
  | first, record :: rest =>
      record.lsn = first ∧
        RecordInRange record.lsn record.type record.payload ∧
        Contiguous (first + 1) rest

/-- The records that one segment holds. -/
structure Segment where
  firstLsn : Nat
  records : List WalRecord

namespace Segment

/-- The bytes of a segment. -/
def bytes (segment : Segment) : Bytes :=
  encodeSegmentHeader segment.firstLsn ++ encodeRecords segment.records

/-- The file that holds a segment. -/
def file (segment : Segment) : SegmentFile :=
  ⟨segment.firstLsn, segment.bytes⟩

/-- The sequence number after the last record of a segment. -/
def nextLsn (segment : Segment) : Nat :=
  segment.firstLsn + segment.records.length

end Segment

/-- Segments that follow each other, of which only the last may be empty. -/
def Chained : Nat → List Segment → Prop
  | _, [] => True
  | first, segment :: rest =>
      segment.firstLsn = first ∧ first < 2 ^ 64 ∧
        Contiguous first segment.records ∧
        (rest ≠ [] → segment.records ≠ []) ∧
        Chained segment.nextLsn rest

@[simp] theorem encodeRecords_nil : encodeRecords [] = [] := rfl

@[simp] theorem encodeRecords_append
    (first second : List WalRecord) :
    encodeRecords (first ++ second) =
      encodeRecords first ++ encodeRecords second := by
  simp [encodeRecords]

@[simp] theorem encodeRecords_cons
    (record : WalRecord)
    (rest : List WalRecord) :
    encodeRecords (record :: rest) =
      recordBytes record.lsn record.type record.payload ++
        encodeRecords rest := by
  simp [encodeRecords]

/-- Every record takes at least one byte. -/
theorem length_le_length_encodeRecords
    (records : List WalRecord) :
    records.length ≤ (encodeRecords records).length := by
  induction records with
  | nil =>
      simp
  | cons record rest inductionHypothesis =>
      simp only [List.length_cons, encodeRecords_cons, List.length_append,
        length_recordBytes, recordHeaderSize]
      omega

/-- No record and no record at all is the only empty encoding. -/
theorem encodeRecords_eq_nil
    {records : List WalRecord} :
    encodeRecords records = [] ↔ records = [] := by
  constructor
  · intro empty
    have bound := length_le_length_encodeRecords records
    rw [empty] at bound
    exact List.length_eq_zero_iff.mp (Nat.le_zero.mp bound)
  · rintro rfl
    rfl

namespace Contiguous

/-- A concatenation is contiguous when its parts are and meet. -/
theorem append_iff
    {first : Nat}
    {records later : List WalRecord} :
    Contiguous first (records ++ later) ↔
      Contiguous first records ∧
        Contiguous (first + records.length) later := by
  induction records generalizing first with
  | nil =>
      simp [Contiguous]
  | cons record rest inductionHypothesis =>
      simp only [List.cons_append, Contiguous, inductionHypothesis,
        List.length_cons]
      rw [show first + 1 + rest.length = first + (rest.length + 1) by omega]
      tauto

/-- Contiguous records are not zero bytes. -/
theorem not_isZeroFilled
    {first : Nat}
    {records : List WalRecord}
    (contiguous : Contiguous first records)
    (nonempty : encodeRecords records ≠ []) :
    isZeroFilled (encodeRecords records) = false := by
  cases records with
  | nil =>
      exact (nonempty rfl).elim
  | cons record rest =>
      obtain ⟨-, inRange, -⟩ := contiguous
      simp [recordBytes, isZeroFilled_append,
        isZeroFilled_recordFields inRange.positive inRange.lsnInRange]

end Contiguous

/-- Scanning passes over whole records and continues behind them. -/
theorem scanSegment_records
    {first : Nat}
    {records : List WalRecord}
    (contiguous : Contiguous first records)
    (rounds : Nat)
    (before tail : Bytes) :
    scanSegment (records.length + rounds)
        (before ++ (encodeRecords records ++ tail)) before.length first =
      let later :=
        scanSegment rounds (before ++ (encodeRecords records ++ tail))
          (before.length + (encodeRecords records).length)
          (first + records.length)
      { later with records := records ++ later.records } := by
  induction records generalizing first before with
  | nil =>
      simp
  | cons record rest inductionHypothesis =>
      obtain ⟨numbered, inRange, restContiguous⟩ := contiguous
      subst numbered
      have whole :=
        scanRecord_whole inRange before (encodeRecords rest ++ tail)
      have later :=
        inductionHypothesis restContiguous
          (before ++ recordBytes record.lsn record.type record.payload)
      have numbers :
          record.lsn + 1 + rest.length = record.lsn + (rest.length + 1) := by
        omega
      have fuel :
          (record :: rest).length + rounds = (rest.length + rounds) + 1 := by
        simp only [List.length_cons]
        omega
      simp only [List.length_append, List.append_assoc, numbers,
        Nat.add_assoc] at later
      rw [fuel]
      simp only [scanSegment, encodeRecords_cons, List.append_assoc,
        whole, later, List.length_append, List.length_cons]
      simp

/--
Scanning a file of whole records with some further bytes: all of the records
are passed over, and what stops the scan is decided by the further bytes.
-/
theorem scanRecords_tail
    {first : Nat}
    {records : List WalRecord}
    (contiguous : Contiguous first records)
    (tail : Bytes)
    (stop : RecordScanResult)
    (stops :
      ∀ lsn type payload endOffset,
        stop ≠ .record lsn type payload endOffset)
    (stopped :
      scanRecord
          (encodeSegmentHeader first ++ (encodeRecords records ++ tail))
          (segmentHeaderSize + (encodeRecords records).length)
          (first + records.length) = stop) :
    scanRecords
        (encodeSegmentHeader first ++ (encodeRecords records ++ tail))
        first =
      { records := records
        offset := segmentHeaderSize + (encodeRecords records).length
        expected := first + records.length
        stop := stop } := by
  have enough := length_le_length_encodeRecords records
  obtain ⟨spare, fuel⟩ :
      ∃ spare,
        (encodeSegmentHeader first ++
            (encodeRecords records ++ tail)).length =
          records.length + (spare + 1) := by
    refine ⟨segmentHeaderSize - 1 +
      ((encodeRecords records).length - records.length) + tail.length, ?_⟩
    simp only [List.length_append, length_encodeSegmentHeader,
      segmentHeaderSize]
    omega
  have passed :=
    scanSegment_records contiguous (spare + 1)
      (encodeSegmentHeader first) tail
  rw [length_encodeSegmentHeader] at passed
  unfold scanRecords
  rw [fuel, passed, scanSegment, stopped]
  cases stop with
  | record lsn type payload endOffset =>
      exact (stops lsn type payload endOffset rfl).elim
  | atEnd =>
      simp
  | torn reason =>
      simp
  | corrupt reason =>
      simp

/-- Scanning exactly the bytes of a segment ends at the end of the file. -/
theorem scanRecords_segment
    {segment : Segment}
    (contiguous : Contiguous segment.firstLsn segment.records) :
    scanRecords segment.bytes segment.firstLsn =
      { records := segment.records
        offset := segment.bytes.length
        expected := segment.nextLsn
        stop := .atEnd } := by
  have scanned :=
    scanRecords_tail contiguous [] .atEnd
      (by intros; exact RecordScanResult.noConfusion) (by
        have size :
            segmentHeaderSize + (encodeRecords segment.records).length =
              (encodeSegmentHeader segment.firstLsn ++
                (encodeRecords segment.records ++ [])).length := by
          simp
        rw [size]
        exact scanRecord_atEnd _ _)
  rw [List.append_nil] at scanned
  simpa [Segment.bytes, Segment.nextLsn] using scanned

/-- A chain that ends in a given segment, split before that segment. -/
theorem Chained.append_singleton_iff
    {first : Nat}
    {full : List Segment}
    {last : Segment} :
    Chained first (full ++ [last]) ↔
      Chained first full ∧
        (∀ segment ∈ full, segment.records ≠ []) ∧
        last.firstLsn = (full.getLast?.map Segment.nextLsn).getD first ∧
        last.firstLsn < 2 ^ 64 ∧
        Contiguous last.firstLsn last.records := by
  induction full generalizing first with
  | nil =>
      simp only [List.nil_append, Chained]
      constructor
      · rintro ⟨starts, bound, contiguous, -, -⟩
        subst starts
        exact ⟨trivial, by simp, by simp, bound, contiguous⟩
      · rintro ⟨-, -, starts, bound, contiguous⟩
        have starts : last.firstLsn = first := by simpa using starts
        subst starts
        exact ⟨rfl, bound, contiguous, by simp, trivial⟩
  | cons segment rest inductionHypothesis =>
      have lastOfRest :
          ((segment :: rest).getLast?.map Segment.nextLsn).getD first =
            (rest.getLast?.map Segment.nextLsn).getD segment.nextLsn := by
        cases rest with
        | nil =>
            simp
        | cons next later =>
            simp [List.getLast?_cons]
      simp only [List.cons_append, Chained, inductionHypothesis, lastOfRest,
        List.forall_mem_cons]
      have followed : rest ++ [last] ≠ [] := by simp
      constructor
      · rintro ⟨starts, bound, contiguous, nonempty, restChained, restNonempty,
          lastStarts⟩
        exact ⟨⟨starts, bound, contiguous, fun _ => nonempty followed,
          restChained⟩, ⟨nonempty followed, restNonempty⟩, lastStarts⟩
      · rintro ⟨⟨starts, bound, contiguous, -, restChained⟩,
          ⟨nonempty, restNonempty⟩, lastStarts⟩
        exact ⟨starts, bound, contiguous, fun _ => nonempty, restChained,
          restNonempty, lastStarts⟩

/-- Every segment of a chain starts no earlier than the chain. -/
theorem Chained.first_le
    {first : Nat}
    {segments : List Segment}
    (chained : Chained first segments) :
    ∀ segment ∈ segments, first ≤ segment.firstLsn := by
  induction segments generalizing first with
  | nil =>
      simp
  | cons segment rest inductionHypothesis =>
      obtain ⟨starts, -, -, -, restChained⟩ := chained
      intro candidate member
      rcases List.mem_cons.mp member with isHead | inRest
      · subst candidate
        omega
      · have later := inductionHypothesis restChained candidate inRest
        unfold Segment.nextLsn at later
        omega

/-- The segments before the last one have smaller numbers. -/
theorem Chained.lt_last
    {first : Nat}
    {full : List Segment}
    {last : Segment}
    (chained : Chained first (full ++ [last])) :
    ∀ segment ∈ full, segment.firstLsn < last.firstLsn := by
  induction full generalizing first with
  | nil =>
      simp
  | cons segment rest inductionHypothesis =>
      obtain ⟨starts, -, -, nonempty, restChained⟩ := chained
      have positive := List.length_pos_iff.mpr (nonempty (by simp))
      have lastStarts :=
        restChained.first_le last (by simp)
      unfold Segment.nextLsn at lastStarts restChained
      intro candidate member
      rcases List.mem_cons.mp member with isHead | inRest
      · subst candidate
        omega
      · exact inductionHypothesis restChained candidate inRest

/-- All records of a list of segments, in order. -/
def allRecords (segments : List Segment) : List WalRecord :=
  segments.flatMap Segment.records

@[simp] theorem allRecords_append
    (first second : List Segment) :
    allRecords (first ++ second) =
      allRecords first ++ allRecords second := by
  simp [allRecords]

/-- The records of a chain are contiguous. -/
theorem Chained.contiguous
    {first : Nat}
    {segments : List Segment}
    (chained : Chained first segments) :
    Contiguous first (allRecords segments) := by
  induction segments generalizing first with
  | nil =>
      trivial
  | cons segment rest inductionHypothesis =>
      obtain ⟨starts, -, contiguous, -, restChained⟩ := chained
      subst starts
      simp only [allRecords, List.flatMap_cons]
      exact Contiguous.append_iff.mpr
        ⟨contiguous, inductionHypothesis restChained⟩

/-- The segment after a chain starts behind all of the chain's records. -/
theorem Chained.last_first
    {first : Nat}
    {full : List Segment}
    {last : Segment}
    (chained : Chained first (full ++ [last])) :
    last.firstLsn = first + (allRecords full).length := by
  induction full generalizing first with
  | nil =>
      simpa [allRecords] using chained.1
  | cons segment rest inductionHypothesis =>
      obtain ⟨starts, -, -, -, restChained⟩ := chained
      have later := inductionHypothesis restChained
      unfold Segment.nextLsn at later
      simp only [allRecords, List.flatMap_cons, List.length_append] at later ⊢
      omega

/-- Changing the last of several files whose names differ. -/
theorem changeFile_last
    {full : List Segment}
    {name : Nat}
    (others : ∀ segment ∈ full, segment.firstLsn < name)
    (contents : Bytes)
    (change : Bytes → Bytes) :
    changeFile (full.map Segment.file ++ [⟨name, contents⟩]) name change =
      full.map Segment.file ++ [⟨name, change contents⟩] := by
  have untouched :
      changeFile (full.map Segment.file) name change =
        full.map Segment.file := by
    unfold changeFile
    rw [List.map_map]
    apply List.map_congr_left
    intro segment member
    have smaller := others segment member
    have different : ¬ segment.firstLsn = name := by omega
    simp [Segment.file, different]
  unfold changeFile at untouched ⊢
  rw [List.map_append, untouched]
  simp

/-- Writing at the end of a file appends. -/
theorem writeAt_end
    (contents data : Bytes) :
    writeAt contents contents.length data = contents ++ data := by
  simp [writeAt]

/--
An open log holds a layout: its files are exactly the encoded segments, the
queued records follow the last of them, and nothing has failed.
-/
structure LogHolds
    (log : WriteAheadLog)
    (first : Nat)
    (full : List Segment)
    (last : Segment)
    (queued : List WalRecord) : Prop where
  files :
    log.files = full.map Segment.file ++ [last.file]
  segments :
    log.segments = full.map Segment.firstLsn ++ [last.firstLsn]
  chained :
    Chained first
      (full ++ [⟨last.firstLsn, last.records ++ queued⟩])
  positive :
    0 < first
  position :
    log.position = last.bytes.length + (encodeRecords queued).length
  nextLsn :
    log.nextLsn = last.nextLsn + queued.length
  pending :
    log.pending.flatten = encodeRecords queued
  pendingBytes :
    log.pendingBytes = (encodeRecords queued).length
  queuedInMemory :
    log.mode ≠ .memory → queued = []
  working :
    log.outcomes = [] ∧ log.broken = false ∧ log.closed = false

/-- The records of a layout, those still queued included. -/
def heldRecords
    (full : List Segment)
    (last : Segment)
    (queued : List WalRecord) : List WalRecord :=
  allRecords full ++ last.records ++ queued

end SinterDb.Wal
