import SinterDb.Wal.Crash

namespace SinterDb.Wal

/-!
# Damage of one byte

Every byte of a segment is covered by a checksum, so opening a log with one
changed byte reports the damage, or takes the last record for a torn write.
-/

/-- A front part of a chain is a chain. -/
theorem Chained.left
    {first : Nat}
    {front back : List Segment}
    (chained : Chained first (front ++ back)) :
    Chained first front := by
  induction front generalizing first with
  | nil =>
      trivial
  | cons segment rest inductionHypothesis =>
      obtain ⟨starts, bound, contiguous, nonempty, restChained⟩ := chained
      refine ⟨starts, bound, contiguous, ?_, inductionHypothesis restChained⟩
      intro followed
      exact nonempty (by simp [followed])

/-- One changed byte among records lies in one of them. -/
theorem changed_encodeRecords
    {records : List WalRecord}
    {changed : Bytes}
    (change : Buffer.OneByteChanged (encodeRecords records) changed) :
    ∃ before record after image,
      records = before ++ record :: after ∧
        Buffer.OneByteChanged
          (recordBytes record.lsn record.type record.payload) image ∧
        changed =
          encodeRecords before ++ (image ++ encodeRecords after) := by
  induction records generalizing changed with
  | nil =>
      obtain ⟨before, after, old, new, -, shape, -⟩ := change
      simp at shape
  | cons record rest inductionHypothesis =>
      rw [encodeRecords_cons] at change
      rcases change.append_cases with
          ⟨image, imageChange, rfl⟩ | ⟨later, laterChange, rfl⟩
      · exact ⟨[], record, rest, image, rfl, imageChange, rfl⟩
      · obtain ⟨before, target, after, image, rfl, imageChange, rfl⟩ :=
          inductionHypothesis laterChange
        exact ⟨record :: before, target, after, image, rfl, imageChange,
          by simp⟩

/-- A changed header still is no file of zero bytes. -/
theorem isIncompleteHeader_changed
    {firstLsn : Nat}
    {changed : Bytes}
    (change : Buffer.OneByteChanged (encodeSegmentHeader firstLsn) changed)
    (records : Bytes) :
    isIncompleteHeader (changed ++ records) = false := by
  have width : changed.length = segmentHeaderSize := by
    simp [change.length_eq]
  have longEnough :
      ¬ (changed ++ records).length < segmentHeaderSize := by
    simp [width]
  have nonzero : isZeroFilled changed = false := by
    -- Two nonzero bytes of the magic number cannot both have been changed.
    have shape :
        encodeSegmentHeader firstLsn =
          [0x53] ++ (0x49 :: (encodeSegmentHeader firstLsn).drop 2) := by
      simp [encodeSegmentHeader, segmentHeaderFields, segmentMagic]
    rw [shape] at change
    rcases change.append_cases with ⟨_, -, rfl⟩ | ⟨_, -, rfl⟩
    · simp [isZeroFilled]
    · simp [isZeroFilled]
  rw [isIncompleteHeader, if_neg longEnough, isZeroFilled_append, nonzero,
    Bool.false_and]

/-- Opening reports damage. -/
def ReportsCorruption
    (options : WriteAheadLogOptions)
    (files : List SegmentFile) : Prop :=
  ∃ file offset lsn reason,
    WriteAheadLog.openLog options files [] =
      .error (.corruption file offset lsn reason)

/-- What recovery reports is what opening the log throws. -/
theorem reportsCorruption_of_recoverLoop
    {options : WriteAheadLogOptions}
    (accepted : options.Accepted)
    {segments : List Segment}
    (chained : Chained 1 segments)
    {files : List SegmentFile}
    (names :
      files.map SegmentFile.nameLsn = segments.map Segment.firstLsn)
    {file offset : Nat}
    {lsn : Option Nat}
    {reason : String}
    (reports :
      recoverLoop files .start =
        .error (.corruption file offset lsn reason)) :
    ReportsCorruption options files := by
  refine ⟨file, offset, lsn, reason, ?_⟩
  have recovers :
      recoverSegments files = .error (.corruption file offset lsn reason) := by
    unfold recoverSegments
    rw [sorted_names chained names]
    exact reports
  unfold WriteAheadLog.openLog
  dsimp only
  rw [if_neg accepted.1, if_neg accepted.2, recovers]

/-- Recovery stops at a file whose header was changed. -/
theorem recoverLoop_header
    {firstLsn : Nat}
    {changed : Bytes}
    (change : Buffer.OneByteChanged (encodeSegmentHeader firstLsn) changed)
    (name : Nat)
    (records : Bytes)
    (rest : List SegmentFile)
    (recovered : RecoveredSegments) :
    ∃ file offset lsn reason,
      recoverLoop (⟨name, changed ++ records⟩ :: rest) recovered =
        .error (.corruption file offset lsn reason) := by
  obtain ⟨reason, rejected⟩ := decodeSegmentHeader_changed change records
  refine ⟨name, 0, none, reason, ?_⟩
  simp [recoverLoop, rejected, isIncompleteHeader_changed change records]

/--
Recovery stops at a file in which scanning finds damage, or a torn write
although other files follow.
-/
theorem recoverLoop_stops
    {firstLsn : Nat}
    (bound : firstLsn < 2 ^ 64)
    {records : Bytes}
    {rest : List SegmentFile}
    {recovered : RecoveredSegments}
    (allowed : recovered.Allows firstLsn)
    {scan : SegmentScan}
    (scanned :
      scanRecords (encodeSegmentHeader firstLsn ++ records) firstLsn = scan)
    (stops :
      (∃ reason, scan.stop = .corrupt reason) ∨
        (rest ≠ [] ∧ ∃ reason, scan.stop = .torn reason)) :
    ∃ file offset lsn reason,
      recoverLoop
          (⟨firstLsn, encodeSegmentHeader firstLsn ++ records⟩ :: rest)
          recovered =
        .error (.corruption file offset lsn reason) := by
  have header :=
    decodeSegmentHeader_encode bound records
  have inOrder :
      ¬ (recovered.segments ≠ [] ∧
        (firstLsn : Int) ≠ recovered.lastLsn + 1) := by
    rintro ⟨seen, different⟩
    exact different (allowed seen).symm
  rw [recoverLoop, header]
  dsimp only
  rw [if_neg (by simp), if_neg inOrder, scanned]
  rcases stops with ⟨reason, corrupt⟩ | ⟨followed, reason, torn⟩
  · rw [corrupt]
    exact ⟨_, _, _, _, rfl⟩
  · rw [torn]
    simp only [List.isEmpty_iff, followed, if_false]
    exact ⟨_, _, _, _, rfl⟩

/--
Scanning a segment with one changed byte among its records stops at the
changed record, with damage unless it is the last record of the segment.
-/
theorem scanRecords_changed
    {first : Nat}
    {records : List WalRecord}
    (contiguous : Contiguous first records)
    {changed : Bytes}
    (change : Buffer.OneByteChanged (encodeRecords records) changed) :
    (∃ scan reason,
        scanRecords (encodeSegmentHeader first ++ changed) first = scan ∧
          scan.stop = .corrupt reason) ∨
      ∃ before record image scan reason,
        records = before ++ [record] ∧
          changed = encodeRecords before ++ image ∧
          scanRecords (encodeSegmentHeader first ++ changed) first = scan ∧
          scan.stop = .torn reason ∧
          scanRecord (encodeSegmentHeader first ++ changed)
            (segmentHeaderSize + (encodeRecords before).length)
            (first + before.length) = .torn reason := by
  obtain ⟨before, record, after, image, rfl, imageChange, rfl⟩ :=
    changed_encodeRecords change
  obtain ⟨beforeContiguous, numbered, inRange, afterContiguous⟩ :=
    Contiguous.append_iff.mp contiguous
  have stops :=
    scanRecord_changed inRange imageChange
      (encodeSegmentHeader first ++ encodeRecords before)
      (encodeRecords after) afterContiguous.not_isZeroFilled
  simp only [List.append_assoc, List.length_append,
    length_encodeSegmentHeader, numbered] at stops
  have scanned :=
    scanRecords_tail beforeContiguous (image ++ encodeRecords after)
  rcases stops with ⟨reason, corrupt⟩ | ⟨nothingAfter, reason, torn⟩
  · left
    exact ⟨_, reason,
      scanned (.corrupt reason) (by intros; exact RecordScanResult.noConfusion)
        corrupt, rfl⟩
  · right
    obtain rfl := encodeRecords_eq_nil.mp nothingAfter
    exact ⟨before, record, image, _, reason, rfl, by simp,
      scanned (.torn reason) (by intros; exact RecordScanResult.noConfusion)
        torn, rfl, torn⟩

/-- The records that are on disk form a chain of their own. -/
theorem LogHolds.writtenChained
    {log : WriteAheadLog}
    {first : Nat}
    {full : List Segment}
    {last : Segment}
    {queued : List WalRecord}
    (holds : LogHolds log first full last queued) :
    Chained first (full ++ [last]) := by
  obtain ⟨fullChained, nonempty, starts, bound, contiguous⟩ :=
    Chained.append_singleton_iff.mp holds.chained
  exact Chained.append_singleton_iff.mpr
    ⟨fullChained, nonempty, starts, bound,
      (Contiguous.append_iff.mp contiguous).1⟩

/--
Opening a chain of segments of which one has a changed byte reports the
damage, or loses the last record of the last segment.
-/
theorem openLog_changed
    {options : WriteAheadLogOptions}
    (accepted : options.Accepted)
    {before after : List Segment}
    {target : Segment}
    (chained : Chained 1 (before ++ target :: after))
    {changed : Bytes}
    (change : Buffer.OneByteChanged target.bytes changed) :
    let files :=
      before.map Segment.file ++
        ⟨target.firstLsn, changed⟩ :: after.map Segment.file
    ReportsCorruption options files ∨
      (after = [] ∧ target.records ≠ [] ∧
        ∃ opened,
          WriteAheadLog.openLog options files [] = .ok opened ∧
            (opened.records 0).2 =
              .ok (allRecords before ++ target.records.dropLast)) := by
  intro files
  have names :
      files.map SegmentFile.nameLsn =
        (before ++ target :: after).map Segment.firstLsn := by
    simp [files, Segment.file, Function.comp_def]
  have untilTarget : Chained 1 (before ++ [target]) := by
    apply Chained.left
    rw [List.append_assoc]
    exact chained
  obtain ⟨beforeChained, nonempty, starts, bound, contiguous⟩ :=
    Chained.append_singleton_iff.mp untilTarget
  have allowed := foldl_pass_allows untilTarget
  have passes :
      recoverLoop files .start =
        recoverLoop (⟨target.firstLsn, changed⟩ :: after.map Segment.file)
          (before.foldl RecoveredSegments.pass .start) :=
    recoverLoop_full beforeChained (by intro seen; exact (seen rfl).elim) _
  rcases change.append_cases with
      ⟨header, headerChange, rfl⟩ | ⟨records, recordsChange, rfl⟩
  · left
    obtain ⟨file, offset, lsn, reason, reports⟩ :=
      recoverLoop_header headerChange target.firstLsn
        (encodeRecords target.records) (after.map Segment.file)
        (before.foldl RecoveredSegments.pass .start)
    rw [← passes] at reports
    exact reportsCorruption_of_recoverLoop accepted chained names reports
  · rcases scanRecords_changed contiguous recordsChange with
        ⟨scan, reason, scanned, corrupt⟩ |
        ⟨kept, record, image, scan, reason, shape, rfl, scanned, torn,
          stopped⟩
    · left
      obtain ⟨file, offset, lsn, reason, reports⟩ :=
        @recoverLoop_stops _ bound _ (after.map Segment.file) _ allowed _
          scanned (.inl ⟨reason, corrupt⟩)
      rw [← passes] at reports
      exact reportsCorruption_of_recoverLoop accepted chained names reports
    · by_cases followed : after = []
      · right
        subst followed
        refine ⟨rfl, by simp [shape], ?_⟩
        rw [shape] at contiguous
        have keptChained :
            Chained 1 (before ++ [⟨target.firstLsn, kept⟩]) :=
          Chained.append_singleton_iff.mpr
            ⟨beforeChained, nonempty, starts, bound,
              (Contiguous.append_iff.mp contiguous).1⟩
        obtain ⟨opened, opens, openedHolds⟩ :=
          openLog_tail accepted (by norm_num) keptChained image (by
            right
            refine ⟨reason, ?_⟩
            simpa [Segment.bytes, Segment.nextLsn] using stopped)
        refine ⟨opened, ?_, ?_⟩
        · simpa [files, Segment.bytes] using opens
        · rw [openedHolds.records_zero, shape]
          simp [heldRecords]
      · left
        obtain ⟨file, offset, lsn, reason, reports⟩ :=
          @recoverLoop_stops _ bound _ (after.map Segment.file) _ allowed _
            scanned (.inr ⟨by simpa using followed, reason, torn⟩)
        rw [← passes] at reports
        exact reportsCorruption_of_recoverLoop accepted chained names reports

/--
One changed byte in any file that a run of appends wrote is reported as
corruption when the log is opened, or the log opens with all of the original
records, or with all of them except the last record of the last segment.
-/
theorem open_after_damage
    {options : WriteAheadLogOptions}
    {fresh : WriteAheadLog}
    (opens : WriteAheadLog.openLog options [] [] = .ok fresh)
    (entries : List (Int × Bytes))
    {before after : List SegmentFile}
    {target : SegmentFile}
    (files :
      (fresh.appendAll entries).1.files = before ++ target :: after)
    {changed : Bytes}
    (change : Buffer.OneByteChanged target.bytes changed)
    {reopening : WriteAheadLogOptions}
    (accepted : reopening.Accepted) :
    let log := (fresh.appendAll entries).1
    let damaged := before ++ ⟨target.nameLsn, changed⟩ :: after
    ∃ intact originals queued,
      WriteAheadLog.openLog reopening log.files [] = .ok intact ∧
        (intact.records 0).2 = .ok originals ∧
        (fresh.appendAll entries).2 = originals ++ queued ∧
        (log.pendingBytes = 0 → queued = []) ∧
        (ReportsCorruption reopening damaged ∨
          ∃ opened,
            WriteAheadLog.openLog reopening damaged [] = .ok opened ∧
              ((opened.records 0).2 = .ok originals ∨
                (opened.records 0).2 = .ok originals.dropLast ∧
                  log.activePath ≤ originals.length)) := by
  intro log damaged
  obtain ⟨freshLog, freshOpens, freshHolds⟩ :=
    openLog_empty (accepted_of_openLog opens)
  obtain rfl : freshLog = fresh := by
    rw [freshOpens] at opens
    exact Except.ok.inj opens
  obtain ⟨full, last, queued, holds, records⟩ :=
    freshHolds.appendAll entries
  have chained := holds.writtenChained
  have intactFiles := holds.files
  obtain ⟨intact, intactOpens, intactHolds⟩ :=
    openLog_tail accepted (by norm_num) chained []
      (by left; simpa using scanRecord_atEnd last.bytes last.nextLsn)
  refine ⟨intact, heldRecords full last [], queued, ?_,
    intactHolds.records_zero, ?_, ?_, ?_⟩
  · rw [intactFiles]
    simpa [Segment.file] using intactOpens
  · simpa [heldRecords, allRecords] using records.symm
  · intro nothingPending
    have noBytes := holds.pendingBytes
    rw [nothingPending] at noBytes
    exact encodeRecords_eq_nil.mp (List.length_eq_zero_iff.mp noBytes.symm)
  · have shape :
        before ++ target :: after = (full ++ [last]).map Segment.file := by
      rw [← files, intactFiles]
      simp
    obtain ⟨front, rest, split, rfl, restShape⟩ :=
      List.map_eq_append_iff.mp shape.symm
    obtain ⟨segment, back, rfl, rfl, rfl⟩ :=
      List.map_eq_cons_iff.mp restShape
    rw [split] at chained
    rcases openLog_changed accepted chained change with
        reports | ⟨atEnd, nonempty, opened, openedOk, read⟩
    · exact .inl reports
    · right
      subst atEnd
      obtain ⟨rfl, lastShape⟩ := List.append_inj' split rfl
      obtain rfl : last = segment := List.singleton_inj.mp lastShape
      refine ⟨opened, openedOk, .inr ⟨?_, ?_⟩⟩
      · rw [read]
        simp [heldRecords, List.dropLast_append_of_ne_nil nonempty]
      · have starts := chained.last_first
        have positive := List.length_pos_iff.mpr nonempty
        rw [holds.keeps.activePath, starts]
        simp only [heldRecords, List.length_append, List.length_nil]
        omega

/-- A changed payload of the only record. -/
theorem open_after_damage_payload :
    ∃ fresh intact originals,
      WriteAheadLog.openLog {} [] [] = .ok fresh ∧
        WriteAheadLog.openLog {} (fresh.appendAll [(1, [7])]).1.files [] =
          .ok intact ∧
        (intact.records 0).2 = .ok originals ∧
        (ReportsCorruption {}
            [⟨1, (Segment.bytes ⟨1, [⟨1, 1, [7]⟩]⟩).dropLast ++ [8]⟩] ∨
          ∃ opened,
            WriteAheadLog.openLog {}
                [⟨1, (Segment.bytes ⟨1, [⟨1, 1, [7]⟩]⟩).dropLast ++ [8]⟩]
                [] = .ok opened ∧
              ((opened.records 0).2 = .ok originals ∨
                (opened.records 0).2 = .ok originals.dropLast)) := by
  have opens :
      WriteAheadLog.openLog {} [] [] =
        .ok (WriteAheadLog.opened [Segment.file ⟨1, []⟩] [] .flushed false
          defaultSegmentSizeBytes [1] segmentHeaderSize 1) := by
    decide +kernel
  have files :
      ((WriteAheadLog.opened [Segment.file ⟨1, []⟩] [] .flushed false
          defaultSegmentSizeBytes [1] segmentHeaderSize 1).appendAll
            [(1, [7])]).1.files =
        [] ++ Segment.file ⟨1, [⟨1, 1, [7]⟩]⟩ :: [] := by
    decide +kernel
  have change :
      Buffer.OneByteChanged (Segment.bytes ⟨1, [⟨1, 1, [7]⟩]⟩)
        ((Segment.bytes ⟨1, [⟨1, 1, [7]⟩]⟩).dropLast ++ [8]) :=
    ⟨(Segment.bytes ⟨1, [⟨1, 1, [7]⟩]⟩).dropLast, [], 7, 8, by decide,
      by decide +kernel, rfl⟩
  obtain ⟨intact, originals, -, intactOpens, read, -, -, outcome⟩ :=
    open_after_damage opens _ files change (accepted_of_openLog opens)
  refine ⟨_, intact, originals, opens, intactOpens, read, ?_⟩
  rcases outcome with reports | ⟨opened, openedOk, records | ⟨records, -⟩⟩
  · exact .inl reports
  · exact .inr ⟨opened, openedOk, .inl records⟩
  · exact .inr ⟨opened, openedOk, .inr records⟩

end SinterDb.Wal
