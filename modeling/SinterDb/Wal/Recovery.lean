import SinterDb.Wal.Writer

namespace SinterDb.Wal

/-!
# Opening a directory again

Recovery passes over whole segments without losing or inventing a record, so
opening a directory whose last file is whole records followed by an unfinished
tail gives a log that holds exactly those records.
-/

/-- What recovery knows after one more whole segment. -/
def RecoveredSegments.pass
    (recovered : RecoveredSegments)
    (segment : Segment) : RecoveredSegments :=
  { recovered with
    segments := recovered.segments ++ [segment.firstLsn]
    validEnd := segment.bytes.length
    lastLsn := (segment.nextLsn : Int) - 1 }

/-- Recovery before the first segment. -/
def RecoveredSegments.start : RecoveredSegments where
  segments := []
  validEnd := segmentHeaderSize
  lastLsn := 0
  removed := none

/-- What recovery has seen allows a segment with the given first number. -/
def RecoveredSegments.Allows
    (recovered : RecoveredSegments)
    (first : Nat) : Prop :=
  recovered.segments ≠ [] → recovered.lastLsn + 1 = first

/-- After a whole segment, recovery allows exactly the next number. -/
theorem RecoveredSegments.pass_allows
    (recovered : RecoveredSegments)
    (segment : Segment) :
    (recovered.pass segment).Allows segment.nextLsn := by
  intro _
  simp [RecoveredSegments.pass]

/-- One whole segment is passed over, wherever it stands in the directory. -/
theorem recoverLoop_segment
    {segment : Segment}
    (bound : segment.firstLsn < 2 ^ 64)
    (contiguous : Contiguous segment.firstLsn segment.records)
    {recovered : RecoveredSegments}
    (allowed : recovered.Allows segment.firstLsn)
    (rest : List SegmentFile) :
    recoverLoop (segment.file :: rest) recovered =
      recoverLoop rest (recovered.pass segment) := by
  have header :
      decodeSegmentHeader segment.file.bytes = .ok segment.firstLsn :=
    decodeSegmentHeader_encode bound _
  have scan : scanRecords segment.file.bytes segment.firstLsn = _ :=
    scanRecords_segment contiguous
  have inOrder :
      ¬ (recovered.segments ≠ [] ∧
        (segment.firstLsn : Int) ≠ recovered.lastLsn + 1) := by
    rintro ⟨seen, different⟩
    exact different (allowed seen).symm
  rw [recoverLoop, header]
  dsimp only
  rw [if_neg (by simp [Segment.file]), if_neg inOrder, scan]
  rfl

/-- A chain of whole segments is passed over. -/
theorem recoverLoop_full
    {first : Nat}
    {full : List Segment}
    (chained : Chained first full)
    {recovered : RecoveredSegments}
    (allowed : recovered.Allows first)
    (rest : List SegmentFile) :
    recoverLoop (full.map Segment.file ++ rest) recovered =
      recoverLoop rest (full.foldl RecoveredSegments.pass recovered) := by
  induction full generalizing first recovered with
  | nil =>
      rfl
  | cons segment later inductionHypothesis =>
      obtain ⟨starts, bound, contiguous, -, laterChained⟩ := chained
      subst starts
      rw [List.map_cons, List.cons_append,
        recoverLoop_segment bound contiguous allowed,
        inductionHypothesis laterChained (recovered.pass_allows segment)]
      rfl

/-- Passing over segments lists their numbers in order. -/
theorem foldl_pass_segments
    (full : List Segment)
    (recovered : RecoveredSegments) :
    (full.foldl RecoveredSegments.pass recovered).segments =
      recovered.segments ++ full.map Segment.firstLsn := by
  induction full generalizing recovered with
  | nil =>
      simp
  | cons segment later inductionHypothesis =>
      simp [inductionHypothesis, RecoveredSegments.pass]

/-- Passing over segments removes none. -/
theorem foldl_pass_removed
    (full : List Segment)
    (recovered : RecoveredSegments) :
    (full.foldl RecoveredSegments.pass recovered).removed =
      recovered.removed := by
  induction full generalizing recovered with
  | nil =>
      rfl
  | cons segment later inductionHypothesis =>
      simp [inductionHypothesis, RecoveredSegments.pass]

/-- After a chain, recovery allows the segment that is chained behind it. -/
theorem foldl_pass_allows
    {first : Nat}
    {full : List Segment}
    {last : Segment}
    (chained : Chained first (full ++ [last])) :
    (full.foldl RecoveredSegments.pass .start).Allows last.firstLsn := by
  obtain ⟨-, -, starts, -, -⟩ := Chained.append_singleton_iff.mp chained
  rcases List.eq_nil_or_concat full with empty | ⟨front, final, shape⟩
  · subst empty
    intro seen
    exact (seen rfl).elim
  · subst shape
    have starts : last.firstLsn = final.nextLsn := by simpa using starts
    rw [List.concat_eq_append, List.foldl_append, starts]
    exact RecoveredSegments.pass_allows _ final

/-- The names of a chain are in increasing order. -/
theorem Chained.pairwise
    {first : Nat}
    {segments : List Segment}
    (chained : Chained first segments) :
    segments.Pairwise fun earlier later =>
      earlier.firstLsn < later.firstLsn := by
  induction segments generalizing first with
  | nil =>
      exact .nil
  | cons segment rest inductionHypothesis =>
      obtain ⟨-, -, -, nonempty, restChained⟩ := chained
      refine .cons ?_ (inductionHypothesis restChained)
      intro later member
      have bound := restChained.first_le later member
      have positive :=
        List.length_pos_iff.mpr (nonempty (List.ne_nil_of_mem member))
      unfold Segment.nextLsn at bound
      omega

/-- Files with the names of a chain are listed in order. -/
theorem sorted_names
    {first : Nat}
    {segments : List Segment}
    (chained : Chained first segments)
    {files : List SegmentFile}
    (names :
      files.map SegmentFile.nameLsn = segments.map Segment.firstLsn) :
    files.insertionSort
        (fun earlier later => earlier.nameLsn ≤ later.nameLsn) = files := by
  apply List.Pairwise.insertionSort_eq
  have increasing := List.pairwise_map.mpr chained.pairwise
  rw [← names] at increasing
  exact (List.pairwise_map.mp increasing).imp Nat.le_of_lt

/-- The files of a chain are listed in order, whatever the last one holds. -/
theorem sorted_files
    {first : Nat}
    {full : List Segment}
    {last : Segment}
    (chained : Chained first (full ++ [last]))
    (image : Bytes) :
    List.insertionSort
        (fun earlier later : SegmentFile => earlier.nameLsn ≤ later.nameLsn)
        (full.map Segment.file ++ [⟨last.firstLsn, image⟩]) =
      full.map Segment.file ++ [⟨last.firstLsn, image⟩] :=
  sorted_names chained (by simp [Segment.file, Function.comp_def])

/-- The options that `WriteAheadLog.open` accepts. -/
def WriteAheadLogOptions.Accepted (options : WriteAheadLogOptions) : Prop :=
  ¬ (options.groupCommit.getD false &&
      options.writeConcern.getD .flushed != .flushed) = true ∧
    ¬ (2 ^ 53 ≤ options.segmentSizeBytes.getD defaultSegmentSizeBytes ∨
      options.segmentSizeBytes.getD defaultSegmentSizeBytes <
        segmentHeaderSize + 64)

/-- Accepted options open an empty directory as a log without records. -/
theorem openLog_empty
    {options : WriteAheadLogOptions}
    (accepted : options.Accepted) :
    ∃ fresh,
      WriteAheadLog.openLog options [] [] = .ok fresh ∧
        LogHolds fresh 1 [] ⟨1, []⟩ [] := by
  refine ⟨WriteAheadLog.opened [Segment.file ⟨1, []⟩] []
      (options.writeConcern.getD .flushed) (options.groupCommit.getD false)
      (options.segmentSizeBytes.getD defaultSegmentSizeBytes) [1]
      segmentHeaderSize 1, ?_, ?_⟩
  · unfold WriteAheadLog.openLog
    dsimp only
    rw [if_neg accepted.1, if_neg accepted.2]
    simp [recoverSegments, recoverLoop, WriteAheadLog.createSegment,
      readSegment, WriteAheadLog.writeFully, WriteAheadLog.takeOutcome,
      WriteAheadLog.opened, changeFile, writeAt, Segment.file,
      Segment.bytes]
  · refine ⟨rfl, rfl, ⟨rfl, by norm_num, trivial, by simp, trivial⟩,
      by norm_num, ?_, rfl, rfl, rfl, fun _ => rfl, rfl, rfl, rfl⟩
    simp [WriteAheadLog.opened, Segment.bytes]

/-- A log that opens on an empty directory has no records. -/
theorem keeps_of_openLog_empty
    {options : WriteAheadLogOptions}
    {outcomes : List IoOutcome}
    {log : WriteAheadLog}
    (opens : WriteAheadLog.openLog options [] outcomes = .ok log) :
    LogKeeps log 1 [] ⟨1, []⟩ [] ∧ log.outcomes <:+ outcomes := by
  unfold WriteAheadLog.openLog at opens
  simp only [recoverSegments, List.insertionSort_nil, recoverLoop,
    List.getLast?_nil] at opens
  split_ifs at opens
  have creates :=
    @LogKeeps.createSegment
      (WriteAheadLog.opened [] outcomes (options.writeConcern.getD .flushed)
        (options.groupCommit.getD false)
        (options.segmentSizeBytes.getD defaultSegmentSizeBytes) [1]
        segmentHeaderSize 1)
      [] rfl 1 (by simp) (options.writeConcern.getD .flushed == .flushed)
  revert creates opens
  generalize WriteAheadLog.createSegment _ _ _ = result
  intro opens creates
  cases creates with
  | done isDone =>
      obtain ⟨left, used, rfl⟩ := isDone
      obtain rfl := Except.ok.inj opens
      refine ⟨⟨rfl, rfl, ⟨rfl, by norm_num, trivial, by simp, trivial⟩,
        by norm_num, ?_, rfl, rfl, rfl, fun _ => rfl, rfl, rfl⟩, used⟩
      simp [WriteAheadLog.opened, Segment.bytes]
  | refused isFault isRefused =>
      cases opens
  | broken isFault isBroken =>
      cases opens

/-- A log that opens at all was given accepted options. -/
theorem accepted_of_openLog
    {options : WriteAheadLogOptions}
    {files : List SegmentFile}
    {outcomes : List IoOutcome}
    {log : WriteAheadLog}
    (opens : WriteAheadLog.openLog options files outcomes = .ok log) :
    options.Accepted := by
  unfold WriteAheadLog.openLog at opens
  dsimp only at opens
  constructor
  · intro grouped
    rw [if_pos grouped] at opens
    cases opens
  · intro badSize
    split_ifs at opens

/--
Opening a directory whose last file is a whole segment followed by a tail that
stops the scan: the log keeps everything up to the tail, whatever its writes
will do.
-/
theorem openLog_keeps
    {options : WriteAheadLogOptions}
    (accepted : options.Accepted)
    {first : Nat}
    {full : List Segment}
    {last : Segment}
    (positive : 0 < first)
    (chained : Chained first (full ++ [last]))
    (tail : Bytes)
    (stopped :
      scanRecord (last.bytes ++ tail) last.bytes.length last.nextLsn =
          .atEnd ∨
        ∃ reason,
          scanRecord (last.bytes ++ tail) last.bytes.length last.nextLsn =
            .torn reason)
    (outcomes : List IoOutcome) :
    ∃ reopened,
      WriteAheadLog.openLog options
          (full.map Segment.file ++ [⟨last.firstLsn, last.bytes ++ tail⟩])
          outcomes = .ok reopened ∧
        reopened.outcomes = outcomes ∧
        LogKeeps reopened first full last [] := by
  obtain ⟨fullChained, -, -, bound, contiguous⟩ :=
    Chained.append_singleton_iff.mp chained
  have regrouped :
      last.bytes ++ tail =
        encodeSegmentHeader last.firstLsn ++
          (encodeRecords last.records ++ tail) := by
    simp [Segment.bytes]
  have header :
      decodeSegmentHeader (last.bytes ++ tail) = .ok last.firstLsn := by
    rw [regrouped]
    exact decodeSegmentHeader_encode bound _
  have validEnd :
      segmentHeaderSize + (encodeRecords last.records).length =
        last.bytes.length := by
    simp [Segment.bytes]
  obtain ⟨stop, scan, harmless⟩ :
      ∃ stop,
        scanRecords (last.bytes ++ tail) last.firstLsn =
            { records := last.records
              offset := last.bytes.length
              expected := last.nextLsn
              stop := stop } ∧
          (stop = .atEnd ∨ ∃ reason, stop = .torn reason) := by
    refine ⟨scanRecord (last.bytes ++ tail) last.bytes.length last.nextLsn,
      ?_, stopped⟩
    rw [regrouped, ← validEnd]
    apply scanRecords_tail contiguous
    · intro lsn type payload endOffset isRecord
      rw [validEnd, ← regrouped] at isRecord
      rcases stopped with atEnd | ⟨reason, torn⟩
      · rw [isRecord] at atEnd
        cases atEnd
      · rw [isRecord] at torn
        cases torn
    · rfl
  have recovers :
      recoverSegments
          (full.map Segment.file ++ [⟨last.firstLsn, last.bytes ++ tail⟩]) =
        .ok ((full.foldl RecoveredSegments.pass .start).pass last) := by
    have allowed := foldl_pass_allows chained
    have inOrder :
        ¬ ((full.foldl RecoveredSegments.pass .start).segments ≠ [] ∧
          (last.firstLsn : Int) ≠
            (full.foldl RecoveredSegments.pass .start).lastLsn + 1) := by
      rintro ⟨seen, different⟩
      exact different (allowed seen).symm
    unfold recoverSegments
    rw [sorted_files chained]
    change recoverLoop _ RecoveredSegments.start = _
    rw [recoverLoop_full fullChained (by intro seen; exact (seen rfl).elim),
      recoverLoop]
    dsimp only
    rw [header]
    dsimp only
    rw [if_neg (by simp), if_neg inOrder, scan]
    rcases harmless with rfl | ⟨reason, rfl⟩ <;> rfl
  refine ⟨WriteAheadLog.opened (full.map Segment.file ++ [last.file]) outcomes
      (options.writeConcern.getD .flushed) (options.groupCommit.getD false)
      (options.segmentSizeBytes.getD defaultSegmentSizeBytes)
      (full.map Segment.firstLsn ++ [last.firstLsn]) last.bytes.length
      last.nextLsn, ?_, rfl, ?_⟩
  · have others := chained.lt_last
    have truncated :=
      changeFile_last others (last.bytes ++ tail)
        (fun contents => contents.take last.bytes.length)
    unfold WriteAheadLog.openLog
    dsimp only
    rw [if_neg accepted.1, if_neg accepted.2, recovers]
    simp only [RecoveredSegments.pass, foldl_pass_removed,
      foldl_pass_segments, RecoveredSegments.start, List.getLast?_append,
      List.getLast?_singleton, Option.some_or, truncated]
    simp [Segment.file]
  · refine ⟨rfl, rfl, by simpa using chained, positive, ?_, ?_, rfl, rfl,
      fun _ => rfl, rfl, rfl⟩
    · simp [WriteAheadLog.opened]
    · simp [WriteAheadLog.opened]

/--
Opening a directory whose last file is a whole segment followed by a tail that
stops the scan: the log holds everything up to the tail.
-/
theorem openLog_tail
    {options : WriteAheadLogOptions}
    (accepted : options.Accepted)
    {first : Nat}
    {full : List Segment}
    {last : Segment}
    (positive : 0 < first)
    (chained : Chained first (full ++ [last]))
    (tail : Bytes)
    (stopped :
      scanRecord (last.bytes ++ tail) last.bytes.length last.nextLsn =
          .atEnd ∨
        ∃ reason,
          scanRecord (last.bytes ++ tail) last.bytes.length last.nextLsn =
            .torn reason) :
    ∃ reopened,
      WriteAheadLog.openLog options
          (full.map Segment.file ++ [⟨last.firstLsn, last.bytes ++ tail⟩])
          [] = .ok reopened ∧
        LogHolds reopened first full last [] := by
  obtain ⟨reopened, opens, faultless, keeps⟩ :=
    openLog_keeps accepted positive chained tail stopped []
  exact ⟨reopened, opens, keeps.holds faultless⟩

/--
Opening a directory whose last file ends inside its header: the file is
removed and the log holds the segments before it.
-/
theorem openLog_shortHeader
    {options : WriteAheadLogOptions}
    (accepted : options.Accepted)
    {full : List Segment}
    {last : Segment}
    (chained : Chained 1 (full ++ [last]))
    {image : Bytes}
    (short : image.length < segmentHeaderSize) :
    ∃ reopened full' last',
      WriteAheadLog.openLog options
          (full.map Segment.file ++ [⟨last.firstLsn, image⟩]) [] =
          .ok reopened ∧
        LogHolds reopened 1 full' last' [] ∧
        heldRecords full' last' [] = allRecords full := by
  obtain ⟨fullChained, -, -, -, -⟩ :=
    Chained.append_singleton_iff.mp chained
  have others := chained.lt_last
  have recovers :
      recoverSegments
          (full.map Segment.file ++ [⟨last.firstLsn, image⟩]) =
        .ok { full.foldl RecoveredSegments.pass .start with
          removed := some last.firstLsn } := by
    unfold recoverSegments
    rw [sorted_files chained]
    change recoverLoop _ RecoveredSegments.start = _
    rw [recoverLoop_full fullChained (by intro seen; exact (seen rfl).elim),
      recoverLoop]
    simp [decodeSegmentHeader, isIncompleteHeader, short]
  have unlinked :
      unlink (full.map Segment.file ++ [⟨last.firstLsn, image⟩])
          last.firstLsn =
        full.map Segment.file :=
    unlink_last others image
  rcases List.eq_nil_or_concat full with empty | ⟨front, final, shape⟩
  · -- Without another segment the log starts over.
    subst empty
    obtain ⟨fresh, opensFresh, freshHolds⟩ := openLog_empty accepted
    refine ⟨fresh, [], ⟨1, []⟩, ?_, freshHolds, rfl⟩
    rw [← opensFresh]
    unfold WriteAheadLog.openLog
    dsimp only
    rw [if_neg accepted.1, if_neg accepted.2, if_neg accepted.1,
      if_neg accepted.2, recovers]
    simp only [List.map_nil, List.nil_append] at unlinked
    simp [RecoveredSegments.start, unlinked, recoverSegments, recoverLoop]
  · rw [List.concat_eq_append] at shape
    subst shape
    obtain ⟨reopened, opens, holds⟩ :=
      openLog_tail accepted (by norm_num) fullChained []
        (by left; simpa using scanRecord_atEnd final.bytes final.nextLsn)
    refine ⟨reopened, front, final, ?_, holds, by
      simp [heldRecords, allRecords]⟩
    have intact :
        recoverSegments
            (front.map Segment.file ++ [⟨final.firstLsn, final.bytes ++ []⟩]) =
          .ok ((front ++ [final]).foldl RecoveredSegments.pass .start) := by
      unfold recoverSegments
      rw [sorted_files fullChained]
      change recoverLoop _ RecoveredSegments.start = _
      have passes :=
        @recoverLoop_full _ _ fullChained .start
          (by intro seen; exact (seen rfl).elim) []
      simpa [Segment.file, recoverLoop] using passes
    have remaining :
        (front ++ [final]).map Segment.file =
          front.map Segment.file ++ [⟨final.firstLsn, final.bytes ++ []⟩] := by
      simp [Segment.file]
    have nothingRemoved :
        ((front ++ [final]).foldl RecoveredSegments.pass .start).removed =
          none :=
      foldl_pass_removed _ _
    rw [← opens]
    unfold WriteAheadLog.openLog
    dsimp only
    rw [if_neg accepted.1, if_neg accepted.2, if_neg accepted.1,
      if_neg accepted.2, recovers, intact]
    dsimp only
    rw [unlinked, nothingRemoved, remaining]

/-- The numbers of contiguous records lie in the range they count through. -/
theorem Contiguous.bounds
    {first : Nat}
    {records : List WalRecord}
    (contiguous : Contiguous first records) :
    ∀ record ∈ records,
      first ≤ record.lsn ∧ record.lsn < first + records.length := by
  induction records generalizing first with
  | nil =>
      simp
  | cons head rest inductionHypothesis =>
      obtain ⟨numbered, -, restContiguous⟩ := contiguous
      intro record member
      rcases List.mem_cons.mp member with isHead | inRest
      · subst record
        simp [numbered]
      · have bounds := inductionHypothesis restContiguous record inRest
        simp only [List.length_cons]
        omega

/-- Every segment of a chain is read from the file that holds it. -/
theorem readSegment_chain
    {first : Nat}
    {segments : List Segment}
    (chained : Chained first segments)
    {segment : Segment}
    (member : segment ∈ segments) :
    readSegment (segments.map Segment.file) segment.firstLsn =
      some segment.bytes := by
  have names := chained.pairwise
  clear chained
  induction segments with
  | nil =>
      simp at member
  | cons head rest inductionHypothesis =>
      rw [List.pairwise_cons] at names
      rcases List.mem_cons.mp member with isHead | inRest
      · subst isHead
        simp [readSegment, Segment.file]
      · have different : ¬ head.firstLsn = segment.firstLsn :=
          Nat.ne_of_lt (names.1 segment inRest)
        have found := inductionHypothesis inRest names.2
        unfold readSegment at found ⊢
        rw [List.map_cons, List.find?_cons_of_neg]
        · exact found
        · simpa [Segment.file] using different

/-- Reading a chain gives the records after the given number, in order. -/
theorem recordsLoop_chain
    {files : List SegmentFile}
    (afterLsn : Nat)
    {first : Nat}
    {segments : List Segment}
    (chained : Chained first segments)
    (readable :
      ∀ segment ∈ segments,
        readSegment files segment.firstLsn = some segment.bytes) :
    WriteAheadLog.recordsLoop files afterLsn
        (segments.map Segment.firstLsn) =
      .ok ((allRecords segments).filter
        fun record => afterLsn < record.lsn) := by
  induction segments generalizing first with
  | nil =>
      rfl
  | cons segment rest inductionHypothesis =>
      obtain ⟨starts, bound, contiguous, -, restChained⟩ := chained
      subst starts
      have later :=
        inductionHypothesis restChained
          (fun candidate member => readable candidate (by simp [member]))
      have header :
          decodeSegmentHeader segment.bytes = .ok segment.firstLsn :=
        decodeSegmentHeader_encode bound _
      have reads := readable segment (by simp)
      simp only [List.map_cons, WriteAheadLog.recordsLoop, reads, header,
        scanRecords_segment contiguous, later]
      simp only [allRecords, List.flatMap_cons, List.filter_append]
      cases rest with
      | nil =>
          simp
      | cons next others =>
          by_cases skipped : next.firstLsn ≤ afterLsn + 1
          · -- A segment is skipped only when all of its records are too old.
            have nothingLost :
                segment.records.filter (fun record => afterLsn < record.lsn) =
                  [] := by
              have nextStarts := restChained.1
              rw [List.filter_eq_nil_iff]
              intro record member
              have bounds := contiguous.bounds record member
              unfold Segment.nextLsn at nextStarts
              simp only [decide_eq_true_eq]
              omega
            simp [skipped, nothingLost]
          · simp [skipped]

/-- Reading a log gives the held records after the given number. -/
theorem LogHolds.records
    {log : WriteAheadLog}
    {first : Nat}
    {full : List Segment}
    {last : Segment}
    {queued : List WalRecord}
    (holds : LogHolds log first full last queued)
    (afterLsn : Nat) :
    (log.records afterLsn).2 =
      .ok ((heldRecords full last queued).filter
        fun record => afterLsn < record.lsn) := by
  obtain ⟨flushed, flushes, flushedHolds, -⟩ := holds.flush
  have chained := holds.chained
  have read :
      WriteAheadLog.recordsLoop flushed.files afterLsn flushed.segments =
        .ok ((heldRecords full last queued).filter
          fun record => afterLsn < record.lsn) := by
    have layout :=
      recordsLoop_chain afterLsn chained
        (fun segment member => readSegment_chain chained member)
    rw [flushedHolds.files, flushedHolds.segments]
    simpa [heldRecords, allRecords] using layout
  simp only [WriteAheadLog.records, WriteAheadLog.assertOpen,
    holds.working.2.1, holds.working.2.2, flushes]
  simpa using read

/-- Reading a log from its start gives all of the held records. -/
theorem LogHolds.records_zero
    {log : WriteAheadLog}
    {first : Nat}
    {full : List Segment}
    {last : Segment}
    {queued : List WalRecord}
    (holds : LogHolds log first full last queued) :
    (log.records 0).2 = .ok (heldRecords full last queued) := by
  rw [holds.records 0]
  congr 1
  rw [List.filter_eq_self]
  intro record member
  have bounds := holds.keeps.contiguous.bounds record member
  have positive := holds.positive
  exact decide_eq_true (by omega)

end SinterDb.Wal
