import SinterDb.Inspect.LogAgreement
import SinterDb.Wal.Recovery

namespace SinterDb.Wal

/-!
# The log that opens on a directory

An opened log holds the accepted files of its directory: each of them is there
with the same header and the same records, and only the last one may have been
cut off behind its records.
-/

/-- The header is read again from a file that is cut off behind it. -/
theorem decodeSegmentHeader_take
    {bytes : Bytes}
    {cut : Nat}
    (behind : segmentHeaderSize ≤ cut)
    (inside : cut ≤ bytes.length) :
    decodeSegmentHeader (bytes.take cut) = decodeSegmentHeader bytes := by
  have headerSize : segmentHeaderSize = 24 := rfl
  have size : (bytes.take cut).length = cut := by
    rw [List.length_take]
    omega
  have splits : bytes = bytes.take cut ++ bytes.drop cut :=
    (List.take_append_drop cut bytes).symm
  have start :
      ∀ stop ≤ 24,
        Buffer.subarray bytes 0 stop =
          Buffer.subarray (bytes.take cut) 0 stop := by
    intro stop small
    conv_lhs => rw [splits]
    exact Buffer.subarray_append _ _ (by omega)
  have number :
      ∀ offset width,
        offset + width ≤ 24 →
        Buffer.readUIntBE bytes offset width =
          Buffer.readUIntBE (bytes.take cut) offset width := by
    intro offset width small
    conv_lhs => rw [splits]
    exact Buffer.readUIntBE_append _ _ (by omega)
  have long : ¬ (bytes.take cut).length < segmentHeaderSize := by
    omega
  have longer : ¬ bytes.length < segmentHeaderSize := by
    omega
  unfold decodeSegmentHeader
  rw [if_neg long, if_neg longer, start 8 (by omega), start 20 (by omega),
    number 20 4 (by omega), number 8 4 (by omega), number 12 8 (by omega)]

/-- A file with a header is at least as long as one. -/
theorem length_of_decodeSegmentHeader
    {bytes : Bytes}
    {firstLsn : Nat}
    (header : decodeSegmentHeader bytes = .ok firstLsn) :
    segmentHeaderSize ≤ bytes.length := by
  by_contra short
  unfold decodeSegmentHeader at header
  rw [if_pos (by omega)] at header
  cases header

/-- A file is found under its name. -/
theorem readSegment_of_mem
    {files : List SegmentFile}
    (distinct : (files.map SegmentFile.nameLsn).Nodup)
    {file : SegmentFile}
    (member : file ∈ files) :
    readSegment files file.nameLsn = some file.bytes := by
  induction files with
  | nil =>
      cases member
  | cons first rest inductionHypothesis =>
      obtain ⟨fresh, others⟩ := List.nodup_cons.mp distinct
      unfold readSegment
      rcases List.mem_cons.mp member with rfl | later
      · simp
      · have different : first.nameLsn ≠ file.nameLsn := by
          intro same
          exact fresh (same ▸ List.mem_map_of_mem later)
        rw [List.find?_cons_of_neg (by simpa using different)]
        exact inductionHypothesis others later

/-- Other files are still found when a file is removed. -/
theorem readSegment_unlink
    {name removed : Nat}
    (other : name ≠ removed)
    (files : List SegmentFile) :
    readSegment (unlink files removed) name = readSegment files name := by
  unfold readSegment unlink
  rw [List.find?_filter]
  congr 2
  funext file
  by_cases named : file.nameLsn = name
  · simp [named, other]
  · simp [named]

/-- What is found when a file has been changed. -/
theorem readSegment_changeFile
    (files : List SegmentFile)
    (changed : Nat)
    (change : Bytes → Bytes)
    (name : Nat) :
    readSegment (changeFile files changed change) name =
      if name = changed then
        (readSegment files name).map change
      else
        readSegment files name := by
  have sameName :
      ∀ file : SegmentFile,
        (if file.nameLsn = changed then
          { file with bytes := change file.bytes }
        else
          file).nameLsn = file.nameLsn := by
    intro file
    split_ifs <;> rfl
  unfold readSegment changeFile
  rw [List.find?_map]
  have samePredicate :
      ((fun file : SegmentFile => file.nameLsn == name) ∘
        fun file : SegmentFile =>
          if file.nameLsn = changed then
            { file with bytes := change file.bytes }
          else
            file) =
        fun file => file.nameLsn == name := by
    funext file
    simp only [Function.comp_apply, sameName]
  rw [samePredicate]
  cases found : files.find? fun file => file.nameLsn == name with
  | none =>
      split_ifs <;> rfl
  | some file =>
      have named : file.nameLsn = name := by
        simpa using List.find?_some found
      by_cases isChanged : name = changed
      · simp [isChanged, named]
      · simp [isChanged, named]

/-- What a log has of a file: the header and the records, uncorrupted. -/
structure KeepsFile
    (files : List SegmentFile)
    (file : SegmentFile)
    (bytes : Bytes) : Prop where
  found : readSegment files file.nameLsn = some bytes
  header : decodeSegmentHeader bytes = .ok file.nameLsn
  records :
    (scanRecords bytes file.nameLsn).records =
      (scanRecords file.bytes file.nameLsn).records
  intact :
    ∀ reason, (scanRecords bytes file.nameLsn).stop ≠ .corrupt reason

/-- An open log has exactly the given files, and nothing waits to be
written. -/
structure OpenOn (log : WriteAheadLog) (held : List SegmentFile) : Prop where
  nonempty : held ≠ []
  segments : log.segments = held.map SegmentFile.nameLsn
  kept : ∀ file ∈ held, ∃ bytes, KeepsFile log.files file bytes
  usable : ∀ file ∈ held, segmentHeaderSize ≤ file.bytes.length
  chained : held.IsChain Follows
  nextLsn :
    ∀ last, held.getLast? = some last →
      log.nextLsn = (scanRecords last.bytes last.nameLsn).expected
  idle :
    log.closed = false ∧ log.broken = false ∧ log.pendingBytes = 0

/-- The records of some files, in their order. -/
def recordsOf (files : List SegmentFile) : List WalRecord :=
  files.flatMap fun file => (scanRecords file.bytes file.nameLsn).records

/-- A record of a segment is numbered below the segment behind it. -/
theorem lsn_lt_of_follows
    {file next : SegmentFile}
    (usable : segmentHeaderSize ≤ file.bytes.length)
    (follows : Follows file next)
    {record : WalRecord}
    (member :
      record ∈ (scanRecords file.bytes file.nameLsn).records) :
    record.lsn < next.nameLsn := by
  have scanned :=
    scanned_scanSegment usable file.bytes.length file.nameLsn
  have numbered :
      record.lsn ∈
        (scanRecords file.bytes file.nameLsn).records.map WalRecord.lsn :=
    List.mem_map_of_mem member
  unfold Follows at follows
  unfold scanRecords at numbered follows
  rw [scanned.numbered, List.mem_range'_1] at numbered
  rw [follows, scanned.counted]
  exact numbered.2

/-- One round of the loop over the segments: a kept segment is passed over or
read. -/
theorem recordsLoop_cons
    {files : List SegmentFile}
    {file : SegmentFile}
    {bytes : Bytes}
    (kept : KeepsFile files file bytes)
    {afterLsn : Nat}
    {rest : List Nat}
    {later : List WalRecord}
    (continues : WriteAheadLog.recordsLoop files afterLsn rest = .ok later) :
    WriteAheadLog.recordsLoop files afterLsn (file.nameLsn :: rest) =
      if ∃ next, rest.head? = some next ∧ next ≤ afterLsn + 1 then
        .ok later
      else
        .ok
          ((scanRecords file.bytes file.nameLsn).records.filter
            (fun record => afterLsn < record.lsn) ++ later) := by
  unfold WriteAheadLog.recordsLoop
  simp only [kept.found, kept.header, ne_eq, not_true, if_false, continues,
    kept.records]
  cases stop : (scanRecords bytes file.nameLsn).stop with
  | corrupt reason =>
      exact absurd stop (kept.intact reason)
  | _ =>
      cases rest with
      | nil =>
          simp
      | cons next others =>
          simp

/-- The records behind a number are those of the files that are not passed
over. -/
theorem recordsLoop_kept
    {files held : List SegmentFile}
    (kept : ∀ file ∈ held, ∃ bytes, KeepsFile files file bytes)
    (usable : ∀ file ∈ held, segmentHeaderSize ≤ file.bytes.length)
    (chained : held.IsChain Follows)
    (afterLsn : Nat) :
    WriteAheadLog.recordsLoop files afterLsn
        (held.map SegmentFile.nameLsn) =
      .ok ((recordsOf held).filter fun record => afterLsn < record.lsn) := by
  induction held with
  | nil =>
      rfl
  | cons file rest inductionHypothesis =>
      obtain ⟨⟨bytes, keptFirst⟩, keptRest⟩ := List.forall_mem_cons.mp kept
      obtain ⟨usableFirst, usableRest⟩ := List.forall_mem_cons.mp usable
      obtain ⟨follows, chainedRest⟩ := List.isChain_cons.mp chained
      have later := inductionHypothesis keptRest usableRest chainedRest
      have splits :
          recordsOf (file :: rest) =
            (scanRecords file.bytes file.nameLsn).records ++
              recordsOf rest := by
        simp [recordsOf]
      rw [List.map_cons, recordsLoop_cons keptFirst later, splits,
        List.filter_append]
      split_ifs with skipped
      · -- Every record of a segment that is passed over is numbered below
        -- the next segment.
        obtain ⟨name, isNext, small⟩ := skipped
        rw [List.head?_map, Option.map_eq_some_iff] at isNext
        obtain ⟨next, isNext, rfl⟩ := isNext
        have passed :
            (scanRecords file.bytes file.nameLsn).records.filter
                (fun record => afterLsn < record.lsn) = [] := by
          rw [List.filter_eq_nil_iff]
          intro record member
          have below :=
            lsn_lt_of_follows usableFirst (follows next isNext) member
          simp only [decide_eq_true_eq]
          omega
        rw [passed, List.nil_append]
      · rfl

/-- An open log yields the records of its files behind a number. -/
theorem OpenOn.records
    {log : WriteAheadLog}
    {held : List SegmentFile}
    (opened : OpenOn log held)
    (afterLsn : Nat) :
    (log.records afterLsn).2 =
      .ok ((recordsOf held).filter fun record => afterLsn < record.lsn) := by
  obtain ⟨closed, broken, idle⟩ := opened.idle
  have flushes : log.flush = (log, .ok ()) := by
    simp [WriteAheadLog.flush, WriteAheadLog.assertWritable, closed, broken,
      idle]
  have isOpen : log.assertOpen = .ok () := by
    simp [WriteAheadLog.assertOpen, closed]
  unfold WriteAheadLog.records
  rw [isOpen]
  simp only [broken, Bool.false_eq_true, if_false, flushes]
  rw [opened.segments]
  exact recordsLoop_kept opened.kept opened.usable opened.chained afterLsn

/-- An open log holds as many records as its files. -/
theorem OpenOn.heldCount
    {log : WriteAheadLog}
    {held : List SegmentFile}
    (opened : OpenOn log held) :
    log.heldCount = (held.map recordsIn).sum := by
  unfold WriteAheadLog.heldCount
  rw [opened.segments, List.map_map]
  congr 1
  refine List.map_congr_left fun file member => ?_
  obtain ⟨bytes, found, header, records, intact⟩ := opened.kept file member
  simp only [Function.comp_apply, found, records]
  rfl

/-- The records of chained files are numbered from the first name on, without
a gap. -/
theorem recordsOf_numbered
    {first : SegmentFile}
    {rest : List SegmentFile}
    (usable :
      ∀ file ∈ first :: rest, segmentHeaderSize ≤ file.bytes.length)
    (chained : (first :: rest).IsChain Follows)
    {last : SegmentFile}
    (isLast : (first :: rest).getLast? = some last) :
    (recordsOf (first :: rest)).map WalRecord.lsn =
        List.range' first.nameLsn (recordsOf (first :: rest)).length ∧
      (scanRecords last.bytes last.nameLsn).expected =
        first.nameLsn + (recordsOf (first :: rest)).length := by
  have scanned :
      Scanned first.bytes segmentHeaderSize first.nameLsn
        (scanRecords first.bytes first.nameLsn) :=
    scanned_scanSegment (usable first List.mem_cons_self) _ _
  induction rest generalizing first with
  | nil =>
      obtain rfl := Option.some_inj.mp isLast
      have single :
          recordsOf [first] =
            (scanRecords first.bytes first.nameLsn).records := by
        simp [recordsOf]
      rw [single]
      exact ⟨scanned.numbered, scanned.counted⟩
  | cons next rest inductionHypothesis =>
      obtain ⟨follows, chainedRest⟩ := List.isChain_cons_cons.mp chained
      have usableRest := (List.forall_mem_cons.mp usable).2
      rw [List.getLast?_cons_cons] at isLast
      obtain ⟨numbered, counted⟩ :=
        inductionHypothesis usableRest chainedRest isLast
          (scanned_scanSegment (usableRest next List.mem_cons_self) _ _)
      have splits :
          recordsOf (first :: next :: rest) =
            (scanRecords first.bytes first.nameLsn).records ++
              recordsOf (next :: rest) := by
        simp [recordsOf]
      have starts :
          next.nameLsn =
            first.nameLsn +
              (scanRecords first.bytes first.nameLsn).records.length :=
        follows.trans scanned.counted
      rw [splits, List.map_append, List.length_append, numbered,
        scanned.numbered, counted, starts]
      exact ⟨(List.range'_append_1 ..), by omega⟩

/-- How many numbers of a range are above a bound. -/
theorem length_filter_range'
    (bound first count : Nat) :
    ((List.range' first count).filter fun number => bound < number).length =
      count - (bound + 1 - first) := by
  induction count generalizing first with
  | zero =>
      simp
  | succ count inductionHypothesis =>
      rw [List.range'_succ]
      by_cases above : bound < first
      · rw [List.filter_cons_of_pos (by simpa using above), List.length_cons,
          inductionHypothesis]
        omega
      · rw [List.filter_cons_of_neg (by simpa using above),
          inductionHypothesis]
        omega

/-- An open log yields as many records as there are numbers behind the given
one, up to the last. -/
theorem OpenOn.yields
    {log : WriteAheadLog}
    {held : List SegmentFile}
    (opened : OpenOn log held)
    (afterLsn : Nat) :
    ∃ yielded,
      (log.records afterLsn).2 = .ok yielded ∧
        yielded.length = log.heldCount - (afterLsn + 1 - log.firstLsn) ∧
        log.nextLsn = log.firstLsn + log.heldCount := by
  refine ⟨_, opened.records afterLsn, ?_⟩
  cases isHeld : held with
  | nil =>
      exact absurd isHeld opened.nonempty
  | cons first rest =>
      obtain rfl := isHeld
      have isLast := List.getLast?_eq_some_getLast opened.nonempty
      obtain ⟨numbered, counted⟩ :=
        recordsOf_numbered opened.usable opened.chained isLast
      have isFirst : log.firstLsn = first.nameLsn := by
        unfold WriteAheadLog.firstLsn
        rw [opened.segments]
        rfl
      have isCount :
          log.heldCount = (recordsOf (first :: rest)).length := by
        rw [opened.heldCount]
        unfold recordsOf recordsIn
        rw [List.length_flatMap]
      rw [opened.nextLsn _ isLast, counted, isFirst, isCount]
      refine ⟨?_, rfl⟩
      rw [← length_filter_range', ← numbered, List.filter_map,
        List.length_map]
      rfl

/-- A report sums up the given files. -/
structure LogReport.SumsUp
    (report : LogReport)
    (held : List SegmentFile) : Prop where
  firstLsn :
    held.head?.map SegmentFile.nameLsn = some (report.firstLsn.getD 1)
  lastLsn :
    ∀ last, held.getLast? = some last →
      report.lastLsn =
        ((scanRecords last.bytes last.nameLsn).expected : Int) - 1
  records : report.records = (held.map recordsIn).sum

/-- A report and a log on the same files have the same numbers. -/
theorem OpenOn.sameNumbers
    {log : WriteAheadLog}
    {held : List SegmentFile}
    (opened : OpenOn log held)
    {report : LogReport}
    (sums : report.SumsUp held) :
    report.firstLsn.getD 1 = log.firstLsn ∧
      report.lastLsn = log.lastLsn ∧
      report.records = log.heldCount := by
  refine ⟨?_, ?_, by rw [sums.records, opened.heldCount]⟩
  · unfold WriteAheadLog.firstLsn
    rw [opened.segments, List.headD_eq_head?_getD, List.head?_map,
      sums.firstLsn]
    rfl
  · have isLast := List.getLast?_eq_some_getLast opened.nonempty
    unfold WriteAheadLog.lastLsn
    rw [sums.lastLsn _ isLast, opened.nextLsn _ isLast]

/-- A log that has just been created is open on an empty segment. -/
theorem openOn_created
    {log : WriteAheadLog}
    (keeps : LogKeeps log 1 [] ⟨1, []⟩ []) :
    OpenOn log [Segment.file ⟨1, []⟩] := by
  have scans := @scanRecords_segment ⟨1, []⟩ trivial
  have isFiles : log.files = [Segment.file ⟨1, []⟩] := by
    simpa using keeps.files
  refine ⟨by simp, by simpa [Segment.file] using keeps.segments, ?_, ?_,
    List.isChain_singleton _, ?_, keeps.usable.2, keeps.usable.1, ?_⟩
  · intro file member
    obtain rfl := List.mem_singleton.mp member
    refine ⟨Segment.bytes ⟨1, []⟩, ?_, ?_, rfl, ?_⟩
    · rw [isFiles]
      rfl
    · exact decodeSegmentHeader_encode (by norm_num) _
    · intro reason
      change (scanRecords (Segment.bytes ⟨1, []⟩) 1).stop ≠ _
      rw [scans]
      simp
  · intro file member
    obtain rfl := List.mem_singleton.mp member
    simp [Segment.file, Segment.bytes]
  · rintro last ⟨⟩
    change log.nextLsn = (scanRecords (Segment.bytes ⟨1, []⟩) 1).expected
    rw [scans, keeps.nextLsn]
    rfl
  · simpa using keeps.pendingBytes

/-- The files that are left when recovery has removed an incomplete last
one. -/
def RecoveredSegments.filesLeft
    (recovered : RecoveredSegments)
    (files : List SegmentFile) : List SegmentFile :=
  match recovered.removed with
  | none => files
  | some name => unlink files name

/-- Opening a log with accepted options is recovery, followed by the creation
of a segment or the opening of the last one. -/
theorem openLog_of_recovered
    {options : WriteAheadLogOptions}
    (accepted : options.Accepted)
    {files : List SegmentFile}
    {recovered : RecoveredSegments}
    (recovers : recoverSegments files = .ok recovered)
    (outcomes : List IoOutcome) :
    WriteAheadLog.openLog options files outcomes =
      match recovered.segments.getLast? with
      | none =>
          match
            (WriteAheadLog.opened (recovered.filesLeft files) outcomes
              (options.writeConcern.getD .flushed)
              (options.groupCommit.getD false)
              (options.segmentSizeBytes.getD defaultSegmentSizeBytes) [1]
              segmentHeaderSize 1).createSegment 1
                (options.writeConcern.getD .flushed == .flushed) with
          | (log, .ok ()) => .ok log
          | (_, .error error) => .error error
      | some last =>
          .ok
            (WriteAheadLog.opened
              (changeFile (recovered.filesLeft files) last
                fun contents => contents.take recovered.validEnd)
              outcomes (options.writeConcern.getD .flushed)
              (options.groupCommit.getD false)
              (options.segmentSizeBytes.getD defaultSegmentSizeBytes)
              recovered.segments recovered.validEnd
              (recovered.lastLsn + 1).toNat) := by
  unfold WriteAheadLog.openLog
  dsimp only
  rw [if_neg accepted.1, if_neg accepted.2, recovers]
  rfl

/-- A directory of which nothing is left opens like an empty one. -/
theorem openLog_nothingLeft
    {options : WriteAheadLogOptions}
    (accepted : options.Accepted)
    {files : List SegmentFile}
    {recovered : RecoveredSegments}
    (recovers : recoverSegments files = .ok recovered)
    (noSegments : recovered.segments = [])
    (nothingLeft : recovered.filesLeft files = [])
    (outcomes : List IoOutcome) :
    WriteAheadLog.openLog options files outcomes =
      WriteAheadLog.openLog options [] outcomes := by
  have empty : recoverSegments [] = .ok RecoveredSegments.start := rfl
  rw [openLog_of_recovered accepted recovers,
    openLog_of_recovered accepted empty, noSegments, nothingLeft]
  rfl

/-- The last file keeps its records when it is cut off behind them. -/
theorem keepsFile_changeFile
    {files : List SegmentFile}
    {file : SegmentFile}
    (isAccepted : AcceptedSegment file)
    (found : readSegment files file.nameLsn = some file.bytes)
    {last : SegmentFile}
    (sameFile : file.nameLsn = last.nameLsn → file = last) :
    ∃ bytes,
      KeepsFile
        (changeFile files last.nameLsn fun contents =>
          contents.take (scanRecords last.bytes last.nameLsn).offset)
        file bytes := by
  have usable := length_of_decodeSegmentHeader isAccepted.header
  by_cases isLast : file.nameLsn = last.nameLsn
  · obtain rfl := sameFile isLast
    have scanned :=
      scanned_scanSegment usable file.bytes.length file.nameLsn
    have cut := scanRecords_take usable file.nameLsn
    refine ⟨file.bytes.take (scanRecords file.bytes file.nameLsn).offset,
      ?_, ?_, ?_, ?_⟩
    · rw [readSegment_changeFile, if_pos rfl, found]
      rfl
    · exact (decodeSegmentHeader_take scanned.least scanned.inside).trans
        isAccepted.header
    · rw [cut]
    · intro reason
      rw [cut]
      simp
  · refine ⟨file.bytes, ?_, isAccepted.header, rfl, isAccepted.intact⟩
    rw [readSegment_changeFile, if_neg isLast, found]

/-- A log that opens on accepted files has all of them. -/
theorem openOn_opened
    {files held : List SegmentFile}
    {last : SegmentFile}
    (isLast : held.getLast? = some last)
    (areAccepted : ∀ file ∈ held, AcceptedSegment file)
    (chained : held.IsChain Follows)
    (distinct : (held.map SegmentFile.nameLsn).Nodup)
    (found :
      ∀ file ∈ held, readSegment files file.nameLsn = some file.bytes)
    (outcomes : List IoOutcome)
    (mode : WriteConcern)
    (groupCommit : Bool)
    (segmentSizeBytes position : Nat) :
    OpenOn
      (WriteAheadLog.opened
        (changeFile files last.nameLsn fun contents =>
          contents.take (scanRecords last.bytes last.nameLsn).offset)
        outcomes mode groupCommit segmentSizeBytes
        (held.map SegmentFile.nameLsn) position
        (scanRecords last.bytes last.nameLsn).expected)
      held := by
  have lastMember : last ∈ held := List.mem_of_getLast? isLast
  refine ⟨List.ne_nil_of_mem lastMember, rfl, ?_, ?_, chained, ?_, rfl, rfl,
    rfl⟩
  · intro file member
    exact keepsFile_changeFile (areAccepted file member) (found file member)
      (List.inj_on_of_nodup_map distinct member lastMember)
  · intro file member
    exact length_of_decodeSegmentHeader (areAccepted file member).header
  · intro other isOther
    rw [isLast, Option.some_inj] at isOther
    rw [← isOther]
    rfl

/-- Nothing is left when recovery accepts no file. -/
theorem filesLeft_of_none
    {files removed : List SegmentFile}
    {recovered : RecoveredSegments}
    (sorted : removed.Perm files)
    (isRemoved :
      removed = [] ∧ recovered.removed = none ∨
        ∃ file, removed = [file] ∧ recovered.removed = some file.nameLsn) :
    recovered.filesLeft files = [] := by
  unfold RecoveredSegments.filesLeft
  rcases isRemoved with ⟨rfl, none⟩ | ⟨file, rfl, some⟩
  · rw [none]
    exact sorted.nil_eq.symm
  · rw [some, ← sorted.singleton_eq]
    simp [unlink]

/-- Accepted files are still there when recovery has removed another one. -/
theorem readSegment_filesLeft
    {files held removed : List SegmentFile}
    (distinct : (files.map SegmentFile.nameLsn).Nodup)
    {recovered : RecoveredSegments}
    (sorted : (held ++ removed).Perm files)
    (isRemoved :
      removed = [] ∧ recovered.removed = none ∨
        ∃ file, removed = [file] ∧ recovered.removed = some file.nameLsn)
    {file : SegmentFile}
    (member : file ∈ held) :
    readSegment (recovered.filesLeft files) file.nameLsn =
      some file.bytes := by
  have found :=
    readSegment_of_mem distinct
      (sorted.subset (List.mem_append_left removed member))
  unfold RecoveredSegments.filesLeft
  rcases isRemoved with ⟨rfl, none⟩ | ⟨last, rfl, some⟩
  · rw [none]
    exact found
  · have apart : file.nameLsn ≠ last.nameLsn := by
      have names := (sorted.map SegmentFile.nameLsn).nodup_iff.mpr distinct
      rw [List.map_append, List.nodup_append] at names
      exact names.2.2 _ (List.mem_map_of_mem member) _ (by simp)
    rw [some]
    simp only
    rw [readSegment_unlink apart, found]

/-- What the inspection and the opening of a log come to on the same files. -/
inductive OpeningVerdict
    (options : WriteAheadLogOptions)
    (files : List SegmentFile)
    (report : LogReport) : Prop where
  | damaged
      (damage : LogDamage)
      (lsn : Option Nat)
      (isDamage : report.damage = some damage)
      (throws :
        ∀ outcomes,
          WriteAheadLog.openLog options files outcomes =
            .error
              (.corruption damage.file damage.offset lsn damage.reason))
  | created
      (undamaged : report.damage = none)
      (sums : report.SumsUp [Segment.file ⟨1, []⟩])
      (opens :
        ∀ outcomes,
          WriteAheadLog.openLog options files outcomes =
            WriteAheadLog.openLog options [] outcomes)
  | reopened
      (held : List SegmentFile)
      (undamaged : report.damage = none)
      (sums : report.SumsUp held)
      (opens :
        ∀ outcomes,
          ∃ log,
            WriteAheadLog.openLog options files outcomes = .ok log ∧
              OpenOn log held)

/-- The report of the inspection agrees with the opening of the log. -/
theorem openingVerdict
    {options : WriteAheadLogOptions}
    (accepted : options.Accepted)
    {files : List SegmentFile}
    (distinct : (files.map SegmentFile.nameLsn).Nodup) :
    OpeningVerdict options files (inspectLog files) := by
  have sorted : (sortedFiles files).Perm files := List.perm_insertionSort _ _
  have verdict :=
    @sameVerdict RecoveredSegments.start none {} ⟨rfl, rfl, rfl, rfl⟩
      (sortedFiles files)
  have isReport :
      inspectLog files =
        { segments := analyzeLoop none (sortedFiles files)
          firstLsn :=
            (summarizeLoop {} (analyzeLoop none (sortedFiles files))).firstLsn
          lastLsn :=
            (summarizeLoop {} (analyzeLoop none (sortedFiles files))).lastLsn
          records :=
            (summarizeLoop {} (analyzeLoop none (sortedFiles files))).records
          damage :=
            (summarizeLoop {}
              (analyzeLoop none (sortedFiles files))).damage } := rfl
  have isRecovery :
      recoverSegments files =
        recoverLoop (sortedFiles files) RecoveredSegments.start := rfl
  revert verdict isReport isRecovery
  generalize recoverLoop (sortedFiles files) RecoveredSegments.start = result
  generalize summarizeLoop {} (analyzeLoop none (sortedFiles files)) = summary
  intro verdict isReport isRecovery
  cases verdict with
  | damaged damage lsn isDamage =>
      refine .damaged damage lsn (by rw [isReport]; exact isDamage) ?_
      intro outcomes
      unfold WriteAheadLog.openLog
      dsimp only
      rw [if_neg accepted.1, if_neg accepted.2, isRecovery]
  | @accepted final later held removed undamaged isFiles areAccepted chained
      goesOn segments isRemoved validEnd endsAt firstLsn lastLsn counts =>
      have undamagedReport : (inspectLog files).damage = none := by
        rw [isReport]
        exact undamaged
      have isSegments : final.segments = held.map SegmentFile.nameLsn := by
        simpa [RecoveredSegments.start] using segments
      have isRemoved :
          removed = [] ∧ final.removed = none ∨
            ∃ file, removed = [file] ∧
              final.removed = some file.nameLsn := isRemoved
      rw [isFiles] at sorted
      by_cases nothing : held = []
      · obtain rfl := nothing
        have noSegments : final.segments = [] := isSegments
        refine .created undamagedReport ?_
          (openLog_nothingLeft accepted isRecovery noSegments
            (filesLeft_of_none sorted isRemoved))
        have scans := @scanRecords_segment ⟨1, []⟩ trivial
        rw [isReport]
        refine ⟨?_, ?_, ?_⟩
        · simp [firstLsn, noSegments, Segment.file]
        · rintro last ⟨⟩
          change summary.lastLsn =
            ((scanRecords (Segment.bytes ⟨1, []⟩) 1).expected : Int) - 1
          rw [lastLsn, endsAt, scans]
          rfl
        · change summary.records =
            (scanRecords (Segment.bytes ⟨1, []⟩) 1).records.length + 0
          rw [counts, scans]
          rfl
      · obtain ⟨last, isLast⟩ : ∃ last, held.getLast? = some last :=
          ⟨_, List.getLast?_eq_some_getLast nothing⟩
        rw [isLast] at validEnd endsAt
        simp only [Option.map_some, Option.getD_some] at validEnd endsAt
        have distinctHeld :
            (held.map SegmentFile.nameLsn).Nodup := by
          have names :=
            (sorted.map SegmentFile.nameLsn).nodup_iff.mpr distinct
          rw [List.map_append, List.nodup_append] at names
          exact names.1
        refine .reopened held undamagedReport ?_ ?_
        · rw [isReport]
          refine ⟨?_, ?_, ?_⟩
          · simp only
            rw [firstLsn, isSegments, List.head?_map]
            cases held with
            | nil =>
                exact absurd rfl nothing
            | cons first rest =>
                rfl
          · intro other isOther
            obtain rfl := Option.some_inj.mp (isLast.symm.trans isOther)
            simp only
            rw [lastLsn, endsAt]
          · simp only
            rw [counts]
            exact Nat.zero_add _
        · intro outcomes
          have opened :=
            @openOn_opened (final.filesLeft files) held last isLast
              areAccepted chained distinctHeld
              (fun file => readSegment_filesLeft distinct sorted isRemoved)
              outcomes (options.writeConcern.getD .flushed)
              (options.groupCommit.getD false)
              (options.segmentSizeBytes.getD defaultSegmentSizeBytes)
              (scanRecords last.bytes last.nameLsn).offset
          refine ⟨_, ?_, opened⟩
          rw [openLog_of_recovered accepted isRecovery, isSegments, validEnd,
            endsAt, List.getLast?_map, isLast]
          simp

/-- Creating a segment finds no corruption. -/
theorem createSegment_ne_corruption
    (log : WriteAheadLog)
    (firstLsn : Nat)
    (durable : Bool)
    (file offset : Nat)
    (lsn : Option Nat)
    (reason : String) :
    (log.createSegment firstLsn durable).2 ≠
      .error (.corruption file offset lsn reason) := by
  unfold WriteAheadLog.createSegment
  by_cases present : (readSegment log.files firstLsn).isSome
  · rw [if_pos present]
    simp
  · rw [if_neg present]
    simp only
    generalize WriteAheadLog.writeFully _ _ _ _ = written
    obtain ⟨log, outcome⟩ := written
    cases outcome with
    | done =>
        cases durable with
        | false =>
            simp
        | true =>
            generalize log.takeOutcome = flushed
            obtain ⟨outcome, log⟩ := flushed
            cases outcome <;> simp
    | diskFull written =>
        simp
    | failed written =>
        simp

/-- Opening an empty directory finds no corruption, whatever its writes do. -/
theorem openLog_empty_ne_corruption
    {options : WriteAheadLogOptions}
    (accepted : options.Accepted)
    (outcomes : List IoOutcome)
    (file offset : Nat)
    (lsn : Option Nat)
    (reason : String) :
    WriteAheadLog.openLog options [] outcomes ≠
      .error (.corruption file offset lsn reason) := by
  have empty : recoverSegments [] = .ok RecoveredSegments.start := rfl
  rw [openLog_of_recovered accepted empty]
  simp only [RecoveredSegments.start, List.getLast?_nil]
  generalize creates : WriteAheadLog.createSegment _ _ _ = result
  obtain ⟨log, created⟩ := result
  cases created with
  | ok done =>
      simp
  | error error =>
      simp only [ne_eq, Except.error.injEq]
      rintro rfl
      exact createSegment_ne_corruption _ _ _ file offset lsn reason
        (congrArg Prod.snd creates)

/--
The inspection and the log agree on every directory: the inspection reports no
damage exactly if the log does not find a corruption, and then both count the
same records from the same first to the same last number.
-/
theorem inspectLog_agrees
    (options : WriteAheadLogOptions)
    (accepted : options.Accepted)
    (files : List SegmentFile)
    (distinct : (files.map SegmentFile.nameLsn).Nodup)
    (outcomes : List IoOutcome) :
    ((inspectLog files).damage = none ↔
        ∀ file offset lsn reason,
          WriteAheadLog.openLog options files outcomes ≠
            .error (.corruption file offset lsn reason)) ∧
      ((inspectLog files).damage = none →
        ∃ log, WriteAheadLog.openLog options files [] = .ok log) ∧
      ∀ log, WriteAheadLog.openLog options files outcomes = .ok log →
        (inspectLog files).firstLsn.getD 1 = log.firstLsn ∧
          (inspectLog files).lastLsn = log.lastLsn ∧
          (inspectLog files).records = log.heldCount ∧
          (log.firstLsn ≠ 0 →
            ∃ yielded,
              (log.records 0).2 = .ok yielded ∧
                yielded.length = (inspectLog files).records) := by
  have agrees :
      ∀ {log held},
        OpenOn log held →
        (inspectLog files).SumsUp held →
        (inspectLog files).firstLsn.getD 1 = log.firstLsn ∧
          (inspectLog files).lastLsn = log.lastLsn ∧
          (inspectLog files).records = log.heldCount ∧
          (log.firstLsn ≠ 0 →
            ∃ yielded,
              (log.records 0).2 = .ok yielded ∧
                yielded.length = (inspectLog files).records) := by
    intro log held opened sums
    obtain ⟨firstLsn, lastLsn, records⟩ := opened.sameNumbers sums
    refine ⟨firstLsn, lastLsn, records, fun positive => ?_⟩
    obtain ⟨yielded, yields, count, next⟩ := opened.yields 0
    refine ⟨yielded, yields, ?_⟩
    rw [count, records]
    omega
  cases openingVerdict accepted distinct with
  | damaged damage lsn isDamage throws =>
      refine ⟨?_, ?_, ?_⟩
      · rw [isDamage, throws]
        simp
      · rw [isDamage]
        simp
      · rw [throws]
        simp
  | created undamaged sums opens =>
      refine ⟨?_, ?_, ?_⟩
      · rw [opens]
        refine iff_of_true undamaged ?_
        exact openLog_empty_ne_corruption accepted outcomes
      · intro _
        obtain ⟨log, isOpen, _⟩ := openLog_empty accepted
        exact ⟨log, (opens []).trans isOpen⟩
      · intro log isOpen
        rw [opens] at isOpen
        exact agrees (openOn_created (keeps_of_openLog_empty isOpen).1) sums
  | reopened held undamaged sums opens =>
      obtain ⟨log, isOpen, opened⟩ := opens outcomes
      refine ⟨?_, ?_, ?_⟩
      · rw [isOpen]
        refine iff_of_true undamaged ?_
        simp
      · intro _
        obtain ⟨other, isOther, _⟩ := opens []
        exact ⟨other, isOther⟩
      · intro other isOther
        obtain rfl := Except.ok.inj (isOpen.symm.trans isOther)
        exact agrees opened sums

/-- A segment with one record, and a next one whose header is incomplete. -/
def interruptedRotation : List SegmentFile :=
  [⟨1, encodeSegmentHeader 1 ++ recordBytes 1 1 [7]⟩, ⟨2, [83]⟩]

/-- The inspection and the log agree after an interrupted rotation. -/
theorem inspectLog_agrees_interruptedRotation :
    (inspectLog interruptedRotation).damage = none ∧
      ∃ log,
        WriteAheadLog.openLog {} interruptedRotation [] = .ok log ∧
          log.firstLsn = 1 ∧ log.lastLsn = 1 ∧ log.heldCount = 1 := by
  have accepted : WriteAheadLogOptions.Accepted {} := by
    unfold WriteAheadLogOptions.Accepted
    decide
  have undamaged : (inspectLog interruptedRotation).damage = none := by
    decide +kernel
  obtain ⟨_, opens, agrees⟩ :=
    inspectLog_agrees {} accepted interruptedRotation (by decide) []
  obtain ⟨log, isOpen⟩ := opens undamaged
  obtain ⟨firstLsn, lastLsn, records, _⟩ := agrees log isOpen
  refine ⟨undamaged, log, isOpen, ?_, ?_, ?_⟩
  · rw [← firstLsn]
    decide +kernel
  · rw [← lastLsn]
    decide +kernel
  · rw [← records]
    decide +kernel

end SinterDb.Wal
