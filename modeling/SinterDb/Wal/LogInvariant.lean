import SinterDb.Wal.LogRun

namespace SinterDb.Wal

/-!
# What holds of every reachable log

The bytes on disk and in the queue are those of the acknowledged records, and
compaction, reading and opening again agree on which of them are left.
-/

/-- Contiguous records are numbered without gaps. -/
theorem Contiguous.lsns
    {first : Nat}
    {records : List WalRecord}
    (contiguous : Contiguous first records) :
    records.map WalRecord.lsn = List.range' first records.length := by
  induction records generalizing first with
  | nil =>
      rfl
  | cons record rest inductionHypothesis =>
      obtain ⟨numbered, -, restContiguous⟩ := contiguous
      rw [List.map_cons, List.length_cons, List.range'_succ, numbered,
        inductionHypothesis restContiguous]

/-- The oldest number of a log is that of its first segment. -/
theorem LogKeeps.firstLsn
    {log : WriteAheadLog}
    {first : Nat}
    {full : List Segment}
    {last : Segment}
    {queued : List WalRecord}
    (keeps : LogKeeps log first full last queued) :
    log.firstLsn = first := by
  have chained := keeps.chained
  unfold WriteAheadLog.firstLsn
  rw [keeps.segments]
  cases full with
  | nil =>
      exact chained.1
  | cons segment rest =>
      exact chained.1

namespace Acknowledges

variable
  {log : WriteAheadLog}
  {acknowledged gone : List WalRecord}
  {full : List Segment}
  {last : Segment}
  {queued : List WalRecord}

/-- The held records are the acknowledged ones from the oldest number on. -/
theorem held
    (acknowledges : Acknowledges log acknowledged gone full last queued) :
    heldRecords full last queued =
      acknowledged.filter fun record => log.firstLsn ≤ record.lsn := by
  rw [acknowledges.isAcknowledged, acknowledges.keeps.firstLsn,
    List.filter_append]
  have noneGone :
      gone.filter (fun record => 1 + gone.length ≤ record.lsn) = [] := by
    rw [List.filter_eq_nil_iff]
    intro record member
    have bounds := acknowledges.numbered.bounds record member
    simp only [decide_eq_true_eq]
    omega
  have allHeld :
      (heldRecords full last queued).filter
          (fun record => 1 + gone.length ≤ record.lsn) =
        heldRecords full last queued := by
    rw [List.filter_eq_self]
    intro record member
    have bounds := acknowledges.keeps.contiguous.bounds record member
    simp only [decide_eq_true_eq]
    omega
  rw [noneGone, allHeld, List.nil_append]

end Acknowledges

/--
The bytes of a log: the files of the full segments, and the file of the active
one with the queued bytes behind it, are the segments that hold the
acknowledged records that are left.
-/
structure WriterInvariant
    (log : WriteAheadLog)
    (acknowledged : List WalRecord)
    (full : List Segment)
    (active : Segment)
    (written : Bytes) : Prop where
  files :
    log.files = full.map Segment.file ++ [⟨active.firstLsn, written⟩]
  bytes :
    written ++ log.pending.flatten = active.bytes
  segments :
    log.segments = (full ++ [active]).map Segment.firstLsn
  chained :
    Chained log.firstLsn (full ++ [active])
  records :
    allRecords (full ++ [active]) =
      acknowledged.filter fun record => log.firstLsn ≤ record.lsn
  numbered :
    acknowledged.map WalRecord.lsn = List.range' 1 acknowledged.length
  nextLsn :
    log.nextLsn = 1 + acknowledged.length
  position :
    log.position = written.length + log.pending.flatten.length
  pendingBytes :
    log.pendingBytes = log.pending.flatten.length

/-- A log that keeps the acknowledged records has their bytes. -/
theorem Acknowledges.writerInvariant
    {log : WriteAheadLog}
    {acknowledged gone : List WalRecord}
    {full : List Segment}
    {last : Segment}
    {queued : List WalRecord}
    (acknowledges : Acknowledges log acknowledged gone full last queued) :
    WriterInvariant log acknowledged full
      ⟨last.firstLsn, last.records ++ queued⟩ last.bytes := by
  have keeps := acknowledges.keeps
  refine ⟨keeps.files, ?_, ?_, ?_, ?_, acknowledges.contiguous.lsns,
    acknowledges.nextLsn, ?_, ?_⟩
  · simp [keeps.pending, Segment.bytes]
  · simp [keeps.segments]
  · rw [keeps.firstLsn]
    exact keeps.chained
  · rw [← acknowledges.held]
    simp [heldRecords, allRecords]
  · rw [keeps.position, keeps.pending]
  · rw [keeps.pendingBytes, keeps.pending]

/--
As long as a log is not broken its bytes are those of the acknowledged
records, and an `append` that throws neither leaves a trace nor uses up a
number.
-/
theorem writerInvariant_of_reachable
    {log : WriteAheadLog}
    {acknowledged : List WalRecord}
    (reachable : Reachable (fun _ => True) log acknowledged)
    (usable : log.broken = false) :
    (∃ full active written,
      WriterInvariant log acknowledged full active written) ∧
      (∀ type payload lsn appended,
        log.append type payload = (appended, .ok lsn) → lsn = log.nextLsn) ∧
      ∀ type payload error failed,
        log.append type payload = (failed, .error error) →
          failed.broken = false →
            failed.nextLsn = log.nextLsn ∧
              ∃ full active written,
                WriterInvariant failed acknowledged full active written := by
  obtain ⟨gone, full, last, queued, acknowledges⟩ :
      ∃ gone full last queued,
        Acknowledges log acknowledged gone full last queued := by
    rcases reachable.acknowledges with isBroken | exists_
    · rw [usable] at isBroken
      cases isBroken
    · exact exists_
  refine ⟨⟨_, _, _, acknowledges.writerInvariant⟩, ?_, ?_⟩
  · intro type payload lsn appended appends
    cases encodes : encodeRecord log.nextLsn type payload with
    | error error =>
        rw [acknowledges.keeps.append_rejected encodes] at appends
        cases appends
    | ok encoded =>
        have ends := acknowledges.keeps.append encodes
        rw [appends] at ends
        cases ends with
        | done isDone =>
            exact isDone.1
  · intro type payload error failed appends stillUsable
    have later := continues_append acknowledges type payload
    rw [appends] at later
    rcases later with ⟨-, gone', full', last', queued', acknowledges'⟩ |
      ⟨-, isBroken⟩
    · simp only [acknowledge, List.append_nil] at acknowledges'
      refine ⟨?_, _, _, _, acknowledges'.writerInvariant⟩
      rw [acknowledges'.nextLsn, acknowledges.nextLsn]
    · rw [show failed.broken = true from isBroken] at stillUsable
      cases stillUsable

/-- A log whose third write or flush finds the disk full. -/
def almostFull : WriteAheadLog :=
  WriteAheadLog.opened [Segment.file ⟨1, []⟩] [.done, .done, .diskFull 9]
    .flushed false defaultSegmentSizeBytes [1] segmentHeaderSize 1

/-- The second of three appends finds the disk full. -/
theorem writerInvariant_of_reachable_diskFull :
    ∃ log full active written,
      log = ((((almostFull.call (.append 1 [7])).1.call
        (.append 2 [8])).1.call (.append 3 [9])).1) ∧
        WriterInvariant log [⟨1, 1, [7]⟩, ⟨2, 3, [9]⟩] full active
          written := by
  have opens :
      WriteAheadLog.openLog {} [] [.done, .done, .done, .done, .diskFull 9] =
        .ok almostFull := by
    decide +kernel
  have reachable :=
    (((@Reachable.fresh (fun _ => True) _ _ _ trivial opens).call
      (.append 1 [7])).call (.append 2 [8])).call (.append 3 [9])
  obtain ⟨⟨full, active, written, invariant⟩, -⟩ :=
    writerInvariant_of_reachable reachable (by decide +kernel)
  refine ⟨_, full, active, written, rfl, ?_⟩
  have isAcknowledged :
      [] ++ (almostFull.call (.append 1 [7])).2 ++
          ((almostFull.call (.append 1 [7])).1.call (.append 2 [8])).2 ++
          (((almostFull.call (.append 1 [7])).1.call
            (.append 2 [8])).1.call (.append 3 [9])).2 =
        [⟨1, 1, [7]⟩, ⟨2, 3, [9]⟩] := by
    decide +kernel
  rw [isAcknowledged] at invariant
  exact invariant

/--
Compaction, reading and opening again: old records go by whole segments from
the front, and what is left stays readable in order.
-/
structure Compaction
    (log : WriteAheadLog)
    (acknowledged : List WalRecord) : Prop where
  numbered :
    acknowledged.map WalRecord.lsn = List.range' 1 acknowledged.length
  truncates :
    ∀ lsn, ∃ removed truncated,
      log.truncateThrough lsn = (truncated, .ok removed) ∧
        removed < log.segments.length ∧
        truncated.segments = log.segments.drop removed ∧
        truncated.files = log.files.drop removed ∧
        truncated.activePath = log.activePath ∧
        truncated.lastLsn = log.lastLsn ∧
        ∀ record ∈ acknowledged, log.firstLsn ≤ record.lsn →
          lsn < record.lsn → truncated.firstLsn ≤ record.lsn
  remaining :
    ∃ records,
      (log.records 0).2 = .ok records ∧
        records.map WalRecord.lsn =
          List.range' log.firstLsn ((log.lastLsn + 1).toNat - log.firstLsn)
  records :
    ∀ afterLsn,
      (log.records afterLsn).2 =
        .ok (acknowledged.filter fun record =>
          afterLsn < record.lsn ∧ log.firstLsn ≤ record.lsn)
  reopens :
    ∀ options : WriteAheadLogOptions, options.Accepted →
      ∃ closed reopened,
        log.close = (closed, .ok ()) ∧
          WriteAheadLog.openLog options closed.files [] = .ok reopened ∧
          reopened.firstLsn = log.firstLsn ∧
          reopened.lastLsn = log.lastLsn ∧
          ∀ afterLsn,
            (reopened.records afterLsn).2 = (log.records afterLsn).2

/-- A log that nothing fails closes without an error. -/
theorem LogHolds.close
    {log : WriteAheadLog}
    {first : Nat}
    {full : List Segment}
    {last : Segment}
    {queued : List WalRecord}
    (holds : LogHolds log first full last queued) :
    ∃ closed, log.close = (closed, .ok ()) := by
  obtain ⟨flushed, flushes, flushedHolds, -⟩ := holds.flush
  unfold WriteAheadLog.close
  simp only [holds.working.2.1, holds.working.2.2, Bool.false_eq_true,
    if_false, flushes]
  unfold WriteAheadLog.commit
  split
  · exact ⟨_, rfl⟩
  · simp only [flushedHolds.keeps.assertWritable, WriteAheadLog.fsyncActive,
      takeOutcome_eq, flushedHolds.working.1, List.headD_nil]
    exact ⟨_, rfl⟩

/-- The numbers of what compaction leaves. -/
theorem Acknowledges.remaining
    {log : WriteAheadLog}
    {acknowledged gone : List WalRecord}
    {full : List Segment}
    {last : Segment}
    {queued : List WalRecord}
    (acknowledges : Acknowledges log acknowledged gone full last queued) :
    (heldRecords full last queued).map WalRecord.lsn =
      List.range' log.firstLsn ((log.lastLsn + 1).toNat - log.firstLsn) := by
  have next := acknowledges.keeps.nextLsn_eq
  have count :
      (log.lastLsn + 1).toNat - (1 + gone.length) =
        (heldRecords full last queued).length := by
    unfold WriteAheadLog.lastLsn
    omega
  rw [acknowledges.keeps.firstLsn, count]
  exact acknowledges.keeps.contiguous.lsns

/-- Compaction and reading over every run without faults. -/
theorem compaction_of_reachable
    {log : WriteAheadLog}
    {acknowledged : List WalRecord}
    (reachable : Reachable (· = []) log acknowledged) :
    Compaction log acknowledged := by
  obtain ⟨none, gone, full, last, queued, acknowledges⟩ :=
    reachable.acknowledges_of_faultless
  have keeps := acknowledges.keeps
  have holds := keeps.holds none
  refine ⟨acknowledges.contiguous.lsns, ?_, ?_, ?_, ?_⟩
  · intro lsn
    obtain ⟨removed, kept, rfl, truncates, keepsKept, old⟩ :=
      truncateThrough_keeps keeps lsn
    refine ⟨removed.length, _, truncates, ?_, ?_, ?_, ?_, rfl, ?_⟩
    · rw [keeps.segments]
      simp only [List.map_append, List.length_append, List.length_map,
        List.length_singleton]
      omega
    · simp [keeps.segments]
    · simp [keeps.files]
    · rw [truncates] at keepsKept
      rw [keepsKept.activePath, keeps.activePath]
    · intro record member notGone above
      rw [truncates] at keepsKept
      rw [keepsKept.firstLsn]
      rw [keeps.firstLsn] at notGone
      have isAcknowledged :
          acknowledged =
            gone ++ (allRecords removed ++ heldRecords kept last queued) := by
        rw [acknowledges.isAcknowledged]
        simp [heldRecords]
      rw [isAcknowledged, List.mem_append, List.mem_append] at member
      rcases member with inGone | inRemoved | inKept
      · have bounds := acknowledges.numbered.bounds record inGone
        omega
      · have notAbove := old record inRemoved
        omega
      · exact (keepsKept.contiguous.bounds record inKept).1
  · exact ⟨_, holds.records_zero, acknowledges.remaining⟩
  · intro afterLsn
    rw [holds.records afterLsn, acknowledges.held, List.filter_filter]
    simp
  · intro options accepted
    obtain ⟨closed, closes⟩ := holds.close
    obtain ⟨reopened, opens, faultless, reopenedKeeps⟩ :=
      openLog_reopened accepted keeps closes []
    have reopenedHolds := reopenedKeeps.holds faultless
    refine ⟨closed, reopened, closes, opens, ?_, ?_, ?_⟩
    · rw [reopenedKeeps.firstLsn, keeps.firstLsn]
    · unfold WriteAheadLog.lastLsn
      rw [reopenedKeeps.nextLsn_eq, keeps.nextLsn_eq, heldRecords_flushed]
    · intro afterLsn
      rw [reopenedHolds.records, holds.records, heldRecords_flushed]

/-- A log whose segments take one record of sixty bytes each. -/
def smallSegments : WriteAheadLog :=
  WriteAheadLog.opened [Segment.file ⟨1, []⟩] [] .flushed false 100 [1]
    segmentHeaderSize 1

/-- Two records in two segments, of which the first is removed. -/
theorem compaction_of_reachable_second :
    Compaction
      (((smallSegments.call (.append 1 (List.replicate 60 7))).1.call
        (.append 1 (List.replicate 60 8))).1.call (.truncateThrough 1)).1
      [⟨1, 1, List.replicate 60 7⟩, ⟨2, 1, List.replicate 60 8⟩] := by
  have opens :
      WriteAheadLog.openLog { segmentSizeBytes := some 100 } [] [] =
        .ok smallSegments := by
    decide +kernel
  have reachable :=
    (((@Reachable.fresh (· = []) _ _ _ rfl opens).call
      (.append 1 (List.replicate 60 7))).call
        (.append 1 (List.replicate 60 8))).call (.truncateThrough 1)
  have compaction := compaction_of_reachable reachable
  have isAcknowledged :
      [] ++ (smallSegments.call (.append 1 (List.replicate 60 7))).2 ++
          ((smallSegments.call (.append 1 (List.replicate 60 7))).1.call
            (.append 1 (List.replicate 60 8))).2 ++
          (((smallSegments.call (.append 1 (List.replicate 60 7))).1.call
            (.append 1 (List.replicate 60 8))).1.call
              (.truncateThrough 1)).2 =
        [⟨1, 1, List.replicate 60 7⟩, ⟨2, 1, List.replicate 60 8⟩] := by
    decide +kernel
  rw [isAcknowledged] at compaction
  exact compaction

example :
    (((smallSegments.call (.append 1 (List.replicate 60 7))).1.call
      (.append 1 (List.replicate 60 8))).1.call
        (.truncateThrough 1)).1.firstLsn = 2 := by
  decide +kernel

end SinterDb.Wal
