import SinterDb.Wal.Recovery

namespace SinterDb.Wal

/-!
# Crashes

A crash keeps the segments before the last one and cuts the last one at some
byte; a file system may also leave zero bytes behind the cut.  Reopening such
a directory gives back exactly the records that lie wholly before the cut.
-/

/-- A run of appends, with the records that the log acknowledged. -/
def WriteAheadLog.appendAll
    (log : WriteAheadLog) :
    List (Int × Bytes) → WriteAheadLog × List WalRecord
  | [] => (log, [])
  | (type, payload) :: rest =>
      match log.append type payload with
      | (appended, .ok lsn) =>
          let (final, later) := appended.appendAll rest
          (final, ⟨lsn, type.toNat, payload⟩ :: later)
      | (rejected, .error _) => rejected.appendAll rest

/-- The bytes that a record takes in a segment. -/
def WalRecord.size (record : WalRecord) : Nat :=
  recordHeaderSize + record.payload.length

/-- The records that lie wholly within the first `budget` bytes. -/
def contained : Nat → List WalRecord → List WalRecord
  | _, [] => []
  | budget, record :: rest =>
      if record.size ≤ budget then
        record :: contained (budget - record.size) rest
      else
        []

/-- What a crash leaves of a file: a cut, with zero bytes behind it. -/
def crashImage (bytes : Bytes) (cut zeros : Nat) : Bytes :=
  bytes.take cut ++ List.replicate zeros 0

/-- A cut of a segment at the end of its header or of one of its records. -/
def IsRecordBoundary (records : List WalRecord) (cut : Nat) : Prop :=
  ∃ count,
    cut = segmentHeaderSize + (encodeRecords (records.take count)).length

/-- A run of appends adds the acknowledged records behind the held ones. -/
theorem LogHolds.appendAll
    {log : WriteAheadLog}
    {first : Nat}
    {full : List Segment}
    {last : Segment}
    {queued : List WalRecord}
    (holds : LogHolds log first full last queued)
    (entries : List (Int × Bytes)) :
    ∃ full' last' queued',
      LogHolds (log.appendAll entries).1 first full' last' queued' ∧
        heldRecords full' last' queued' =
          heldRecords full last queued ++ (log.appendAll entries).2 := by
  induction entries generalizing log full last queued with
  | nil =>
      exact ⟨full, last, queued, holds, by simp [WriteAheadLog.appendAll]⟩
  | cons entry rest inductionHypothesis =>
      obtain ⟨type, payload⟩ := entry
      cases encodes : encodeRecord log.nextLsn type payload with
      | error error =>
          have rejected := holds.keeps.append_rejected encodes
          simpa [WriteAheadLog.appendAll, rejected] using
            inductionHypothesis holds
      | ok record =>
          obtain ⟨appended, full', last', queued', appends, appendedHolds,
              records⟩ := holds.append encodes
          obtain ⟨full'', last'', queued'', finalHolds, allRecords⟩ :=
            inductionHypothesis appendedHolds
          refine ⟨full'', last'', queued'', ?_, ?_⟩
          · simpa [WriteAheadLog.appendAll, appends] using finalHolds
          · simp [WriteAheadLog.appendAll, appends, allRecords, records]

/-- The contained records come first. -/
theorem contained_prefix
    (budget : Nat)
    (records : List WalRecord) :
    ∃ dropped, records = contained budget records ++ dropped := by
  induction records generalizing budget with
  | nil =>
      exact ⟨[], rfl⟩
  | cons record rest inductionHypothesis =>
      unfold contained
      split_ifs with fits
      · obtain ⟨dropped, split⟩ :=
          inductionHypothesis (budget - record.size)
        exact ⟨dropped, by rw [List.cons_append, ← split]⟩
      · exact ⟨record :: rest, rfl⟩

/-- Records behind the bytes of a file are not contained in it. -/
theorem contained_append
    {budget : Nat}
    {records : List WalRecord}
    (inside : budget ≤ (encodeRecords records).length)
    (queued : List WalRecord) :
    contained budget (records ++ queued) = contained budget records := by
  induction records generalizing budget with
  | nil =>
      have noBytes : budget = 0 := by simpa using inside
      subst noBytes
      cases queued with
      | nil =>
          rfl
      | cons record rest =>
          simp [contained, WalRecord.size, recordHeaderSize]
  | cons record rest inductionHypothesis =>
      simp only [List.cons_append, contained]
      split_ifs with fits
      · rw [inductionHypothesis]
        simp only [encodeRecords_cons, List.length_append,
          length_recordBytes] at inside
        unfold WalRecord.size at fits ⊢
        omega
      · rfl

/-- A cut at a record boundary contains the records before it. -/
theorem contained_boundary
    (records : List WalRecord)
    (count : Nat) :
    contained (encodeRecords (records.take count)).length records =
      records.take count := by
  induction records generalizing count with
  | nil =>
      simp [contained]
  | cons record rest inductionHypothesis =>
      cases count with
      | zero =>
          simp [contained, WalRecord.size, recordHeaderSize]
      | succ count =>
          have remaining :
              (recordBytes record.lsn record.type record.payload).length +
                  (encodeRecords (rest.take count)).length - record.size =
                (encodeRecords (rest.take count)).length := by
            simp [WalRecord.size]
          simp only [List.take_succ_cons, encodeRecords_cons,
            List.length_append, contained, remaining, inductionHypothesis]
          simp [WalRecord.size]

/--
Cutting encoded records leaves the contained ones and a tail that ends the
scan without damage.
-/
theorem take_encodeRecords
    {first : Nat}
    {records : List WalRecord}
    (contiguous : Contiguous first records)
    {cut : Nat}
    (inside : cut ≤ (encodeRecords records).length) :
    ∃ tail,
      (encodeRecords records).take cut =
          encodeRecords (contained cut records) ++ tail ∧
        ∀ before,
          scanRecord (before ++ tail) before.length
              (first + (contained cut records).length) = .atEnd ∨
            ∃ reason,
              scanRecord (before ++ tail) before.length
                (first + (contained cut records).length) =
                .torn reason := by
  induction records generalizing first cut with
  | nil =>
      refine ⟨[], by simp [contained], ?_⟩
      intro before
      left
      simpa using scanRecord_atEnd before _
  | cons record rest inductionHypothesis =>
      obtain ⟨numbered, inRange, restContiguous⟩ := contiguous
      subst numbered
      have size :
          (recordBytes record.lsn record.type record.payload).length =
            record.size := by
        simp [WalRecord.size]
      simp only [encodeRecords_cons, List.length_append, size] at inside
      unfold contained
      split_ifs with fits
      · obtain ⟨tail, taken, stops⟩ :=
          @inductionHypothesis (record.lsn + 1) restContiguous
            (cut - record.size) (by omega)
        refine ⟨tail, ?_, ?_⟩
        · rw [encodeRecords_cons, encodeRecords_cons, List.take_append,
            size, taken, List.take_of_length_le (by omega)]
          simp
        · intro before
          have numbers :
              record.lsn +
                  (record :: contained (cut - record.size) rest).length =
                record.lsn + 1 +
                  (contained (cut - record.size) rest).length := by
            simp only [List.length_cons]
            omega
          rw [numbers]
          exact stops before
      · refine ⟨(recordBytes record.lsn record.type record.payload).take cut,
          ?_, ?_⟩
        · rw [encodeRecords_cons, List.take_append_of_le_length (by omega)]
          simp
        · intro before
          by_cases empty : cut = 0
          · left
            subst empty
            simpa using scanRecord_atEnd before _
          · right
            simpa using
              scanRecord_cut inRange (by omega) (by omega) before

/-- No record fits in no bytes. -/
theorem contained_zero
    (records : List WalRecord) :
    contained 0 records = [] := by
  cases records with
  | nil =>
      rfl
  | cons record rest =>
      simp [contained, WalRecord.size, recordHeaderSize]

/-- Reopening what a crash left of a log holds the surviving records. -/
theorem LogHolds.crash
    {options : WriteAheadLogOptions}
    (accepted : options.Accepted)
    {log : WriteAheadLog}
    {full : List Segment}
    {last : Segment}
    {queued : List WalRecord}
    (holds : LogHolds log 1 full last queued)
    {cut zeros : Nat}
    (inside : cut ≤ last.bytes.length)
    (zeroFill : zeros = 0 ∨ IsRecordBoundary (last.records ++ queued) cut) :
    ∃ reopened full' last',
      WriteAheadLog.openLog options
          (full.map Segment.file ++
            [⟨last.firstLsn, crashImage last.bytes cut zeros⟩]) [] =
          .ok reopened ∧
        LogHolds reopened 1 full' last' [] ∧
        heldRecords full' last' [] =
          allRecords full ++
            contained (cut - segmentHeaderSize)
              (last.records ++ queued) := by
  obtain ⟨fullChained, nonempty, starts, bound, contiguous⟩ :=
    Chained.append_singleton_iff.mp holds.chained
  by_cases inHeader : cut < segmentHeaderSize
  · have noZeros : zeros = 0 := by
      rcases zeroFill with none | ⟨count, boundary⟩
      · exact none
      · omega
    have short :
        (crashImage last.bytes cut zeros).length < segmentHeaderSize := by
      simp only [crashImage, noZeros, List.replicate_zero, List.append_nil,
        List.length_take]
      omega
    have nothingLeft : cut - segmentHeaderSize = 0 := by omega
    obtain ⟨reopened, full', last', opens, reopenedHolds, records⟩ :=
      openLog_shortHeader accepted holds.chained short
    refine ⟨reopened, full', last', opens, reopenedHolds, ?_⟩
    rw [records, nothingLeft, contained_zero, List.append_nil]
  · have recordsContiguous := (Contiguous.append_iff.mp contiguous).1
    have cutInside :
        cut - segmentHeaderSize ≤ (encodeRecords last.records).length := by
      simp only [Segment.bytes, List.length_append,
        length_encodeSegmentHeader] at inside
      omega
    have sameContained := contained_append cutInside queued
    obtain ⟨dropped, split⟩ :=
      contained_prefix (cut - segmentHeaderSize) last.records
    obtain ⟨tail, taken, stops⟩ :=
      take_encodeRecords recordsContiguous cutInside
    generalize keptShape :
      contained (cut - segmentHeaderSize) last.records = kept
      at sameContained split taken stops
    have keptContiguous : Contiguous last.firstLsn kept := by
      rw [split] at recordsContiguous
      exact (Contiguous.append_iff.mp recordsContiguous).1
    have keptChained :
        Chained 1 (full ++ [⟨last.firstLsn, kept⟩]) :=
      Chained.append_singleton_iff.mpr
        ⟨fullChained, nonempty, starts, bound, keptContiguous⟩
    -- At a record boundary nothing is left of the next record.
    have noTail : 0 < zeros → tail = [] := by
      intro filled
      rcases zeroFill with none | ⟨count, boundary⟩
      · omega
      · have exact := contained_boundary (last.records ++ queued) count
        have offset :
            (encodeRecords ((last.records ++ queued).take count)).length =
              cut - segmentHeaderSize := by
          omega
        rw [offset, sameContained] at exact
        have lengths := congrArg List.length taken
        rw [← exact] at offset
        simp only [List.length_take, List.length_append] at lengths
        exact List.length_eq_zero_iff.mp (by omega)
    have image :
        crashImage last.bytes cut zeros =
          Segment.bytes ⟨last.firstLsn, kept⟩ ++
            (tail ++ List.replicate zeros 0) := by
      have width := length_encodeSegmentHeader last.firstLsn
      unfold crashImage Segment.bytes
      rw [List.take_append, width, taken,
        List.take_of_length_le (by omega)]
      simp
    have stopped :=
      fun before : Bytes => show
        scanRecord (before ++ (tail ++ List.replicate zeros 0))
            before.length (last.firstLsn + kept.length) = .atEnd ∨
          ∃ reason,
            scanRecord (before ++ (tail ++ List.replicate zeros 0))
              before.length (last.firstLsn + kept.length) = .torn reason by
        rcases Nat.eq_zero_or_pos zeros with none | filled
        · simpa [none] using stops before
        · rw [noTail filled, List.nil_append]
          exact (scanRecord_zeros zeros before _).imp And.right id
    obtain ⟨reopened, opens, reopenedHolds⟩ :=
      openLog_tail accepted (by norm_num) keptChained _
        (stopped (Segment.bytes ⟨last.firstLsn, kept⟩))
    refine ⟨reopened, full, ⟨last.firstLsn, kept⟩, ?_, reopenedHolds, ?_⟩
    · rw [image]
      exact opens
    · rw [sameContained]
      simp [heldRecords]

/--
After any run of appends to a fresh log and any crash that cuts the last
segment, the log opens with exactly the records that survived whole, numbered
from one, and continues to count behind the last of them.
-/
theorem open_after_crash
    {options : WriteAheadLogOptions}
    {fresh : WriteAheadLog}
    (opens : WriteAheadLog.openLog options [] [] = .ok fresh)
    (entries : List (Int × Bytes))
    {earlier : List SegmentFile}
    {last : SegmentFile}
    (files : (fresh.appendAll entries).1.files = earlier ++ [last])
    {cut zeros : Nat}
    (inside : cut ≤ last.bytes.length)
    (zeroFill :
      zeros = 0 ∨
        IsRecordBoundary
          ((fresh.appendAll entries).2.drop (last.nameLsn - 1)) cut)
    {reopening : WriteAheadLogOptions}
    (accepted : reopening.Accepted) :
    let acknowledged := (fresh.appendAll entries).2
    let survivors :=
      acknowledged.take (last.nameLsn - 1) ++
        contained (cut - segmentHeaderSize)
          (acknowledged.drop (last.nameLsn - 1))
    ∃ reopened,
      WriteAheadLog.openLog reopening
          (earlier ++ [⟨last.nameLsn, crashImage last.bytes cut zeros⟩]) [] =
          .ok reopened ∧
        (reopened.records 0).2 = .ok survivors ∧
        Contiguous 1 survivors ∧
        ∀ type payload record,
          encodeRecord (survivors.length + 1) type payload = .ok record →
            (reopened.append type payload).2 =
              .ok (survivors.length + 1) := by
  intro acknowledged survivors
  obtain ⟨freshLog, freshOpens, freshHolds⟩ :=
    openLog_empty (accepted_of_openLog opens)
  obtain rfl : freshLog = fresh := by
    rw [freshOpens] at opens
    exact Except.ok.inj opens
  obtain ⟨full, lastSegment, queued, holds, records⟩ :=
    freshHolds.appendAll entries
  have sameFiles := holds.files
  rw [files] at sameFiles
  obtain ⟨rfl, sameLast⟩ := List.append_inj' sameFiles rfl
  obtain rfl : last = lastSegment.file := List.singleton_inj.mp sameLast
  have lastStarts := holds.chained.last_first
  have before : lastSegment.file.nameLsn - 1 = (allRecords full).length := by
    simp only [Segment.file] at lastStarts ⊢
    omega
  have acknowledgedShape :
      acknowledged =
        allRecords full ++ (lastSegment.records ++ queued) := by
    have shape : heldRecords full lastSegment queued = acknowledged := by
      simpa [heldRecords, allRecords] using records
    rw [← shape, heldRecords, List.append_assoc]
  have dropped :
      acknowledged.drop (lastSegment.file.nameLsn - 1) =
        lastSegment.records ++ queued := by
    rw [before, acknowledgedShape, List.drop_left]
  have taken :
      acknowledged.take (lastSegment.file.nameLsn - 1) = allRecords full := by
    rw [before, acknowledgedShape, List.take_left]
  obtain ⟨reopened, full', last', reopens, reopenedHolds, survived⟩ :=
    holds.crash accepted inside (by rw [← dropped]; exact zeroFill)
  have survivorsShape : survivors = heldRecords full' last' [] := by
    simp only [survivors, dropped, taken, survived]
  have numbered := reopenedHolds.keeps.contiguous
  rw [← survivorsShape] at numbered
  refine ⟨reopened, reopens, ?_, numbered, ?_⟩
  · rw [reopenedHolds.records_zero, ← survivorsShape]
  · intro type payload record encodes
    have next : reopened.nextLsn = survivors.length + 1 := by
      rw [reopenedHolds.keeps.nextLsn_eq, ← survivorsShape, Nat.add_comm]
    rw [← next] at encodes ⊢
    obtain ⟨appended, -, -, -, appends, -⟩ := reopenedHolds.append encodes
    rw [appends]

/-- A cut inside the second of two records leaves the first one. -/
theorem open_after_crash_second_record :
    ∃ fresh bytes reopened,
      WriteAheadLog.openLog {} [] [] = .ok fresh ∧
        (fresh.appendAll [(1, [7]), (2, [8, 9])]).1.files = [⟨1, bytes⟩] ∧
        WriteAheadLog.openLog {} [⟨1, bytes.take 50⟩] [] = .ok reopened ∧
        (reopened.records 0).2 = .ok [⟨1, 1, [7]⟩] := by
  have opens :
      WriteAheadLog.openLog {} [] [] =
        .ok (WriteAheadLog.opened [Segment.file ⟨1, []⟩] [] .flushed false
          defaultSegmentSizeBytes [1] segmentHeaderSize 1) := by
    decide +kernel
  have files :
      ((WriteAheadLog.opened [Segment.file ⟨1, []⟩] [] .flushed false
          defaultSegmentSizeBytes [1] segmentHeaderSize 1).appendAll
            [(1, [7]), (2, [8, 9])]).1.files =
        [] ++ [Segment.file ⟨1, [⟨1, 1, [7]⟩, ⟨2, 2, [8, 9]⟩]⟩] := by
    decide +kernel
  obtain ⟨reopened, reopens, records, -⟩ :=
    @open_after_crash _ _ opens _ _ _ files 50 0 (by decide +kernel)
      (.inl rfl) {} (accepted_of_openLog opens)
  refine ⟨_, _, reopened, opens, files, ?_, ?_⟩
  · simpa [crashImage, Segment.file] using reopens
  · rw [records]
    decide +kernel

end SinterDb.Wal
