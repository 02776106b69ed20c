import SinterDb.Inspect.RepairOutcome

namespace SinterDb

open Unicode
open Wal

/-!
# What a repair loses

An intact record is one that the inspection counts: it is found by the scan of
a segment whose header can be used.  Actions that are announced as lossless
should leave a record for every number behind the snapshot.
-/

namespace Wal

/-- Some segment has an intact record with the given number. -/
def HasRecord (segments : List SegmentFile) (lsn : Nat) : Prop :=
  ∃ file ∈ segments,
    decodeSegmentHeader file.bytes = .ok file.nameLsn ∧
      ∃ record ∈ (scanRecords file.bytes file.nameLsn).records,
        record.lsn = lsn

instance (segments : List SegmentFile) (lsn : Nat) :
    Decidable (HasRecord segments lsn) :=
  inferInstanceAs (Decidable (∃ file ∈ segments, _ ∧ ∃ record ∈ _, _))

/-- More segments have more records. -/
theorem HasRecord.mono
    {segments more : List SegmentFile}
    (isSubset : segments ⊆ more)
    {lsn : Nat}
    (has : HasRecord segments lsn) :
    HasRecord more lsn := by
  obtain ⟨file, member, has⟩ := has
  exact ⟨file, isSubset member, has⟩

/-- The numbers of the records in a segment with a usable header. -/
theorem mem_records_iff
    {file : SegmentFile}
    (header : decodeSegmentHeader file.bytes = .ok file.nameLsn)
    (lsn : Nat) :
    (∃ record ∈ (scanRecords file.bytes file.nameLsn).records,
        record.lsn = lsn) ↔
      file.nameLsn ≤ lsn ∧
        lsn < (scanRecords file.bytes file.nameLsn).expected := by
  have scanned :
      Scanned file.bytes segmentHeaderSize file.nameLsn
        (scanRecords file.bytes file.nameLsn) :=
    scanned_scanSegment (length_of_decodeSegmentHeader header) _ _
  rw [← List.mem_map, scanned.numbered, List.mem_range'_1, scanned.counted]

/-- The last number of a file, if its header can be used. -/
def fileLast (file : SegmentFile) : Option Int :=
  if decodeSegmentHeader file.bytes = .ok file.nameLsn then
    some ((scanRecords file.bytes file.nameLsn).expected - 1)
  else
    none

/-- What is reported of a file: its last number and how many records it
has. -/
theorem reportSegment_counts
    (previous : Option SegmentReport)
    (file : SegmentFile)
    (isLast : Bool) :
    (reportSegment previous file isLast).lastLsn = fileLast file ∧
      (decodeSegmentHeader file.bytes = .ok file.nameLsn →
        (reportSegment previous file isLast).records =
          (scanRecords file.bytes file.nameLsn).records.length) := by
  unfold reportSegment analyzeSegment fileLast
  cases header : decodeSegmentHeader file.bytes with
  | failed reason =>
      simp
  | ok firstLsn =>
      by_cases misnamed : firstLsn ≠ file.nameLsn
      · simp [misnamed]
      · obtain rfl := not_not.mp misnamed
        simp

/-- The last numbers in the reports are those of the files. -/
theorem filterMap_lastLsn
    (previous : Option SegmentReport)
    (files : List SegmentFile) :
    (analyzeLoop previous files).filterMap SegmentReport.lastLsn =
      files.filterMap fileLast := by
  induction files generalizing previous with
  | nil =>
      rfl
  | cons file rest inductionHypothesis =>
      rw [analyzeLoop, List.filterMap_cons, List.filterMap_cons,
        (reportSegment_counts previous file rest.isEmpty).1,
        inductionHypothesis]

/-- A segment whose header cannot be used is reported as such. -/
theorem unusable_status
    (previous : Option SegmentReport)
    {file : SegmentFile}
    (isLast : Bool)
    (unusable : decodeSegmentHeader file.bytes ≠ .ok file.nameLsn) :
    (reportSegment previous file isLast).status = .badHeader ∨
      (reportSegment previous file isLast).status = .incompleteHeader := by
  unfold reportSegment analyzeSegment
  cases header : decodeSegmentHeader file.bytes with
  | failed reason =>
      simp only
      split_ifs <;> simp
  | ok firstLsn =>
      have misnamed : firstLsn ≠ file.nameLsn := by
        rintro rfl
        exact unusable header
      simp [misnamed]

/-- The files behind clean reports: usable segments that follow one another,
and maybe a last one without a usable header. -/
theorem accepted_of_clean
    {previous : Option SegmentReport}
    {files : List SegmentFile}
    (clean : CleanReports (analyzeLoop previous files)) :
    ∃ accepted tail,
      files = accepted ++ tail ∧
        (∀ file ∈ accepted,
          decodeSegmentHeader file.bytes = .ok file.nameLsn) ∧
        accepted.IsChain Follows ∧
        (∀ first last,
          accepted.head? = some first →
            previous.bind SegmentReport.lastLsn = some last →
              (first.nameLsn : Int) = last + 1) ∧
        ∀ file ∈ tail,
          decodeSegmentHeader file.bytes ≠ .ok file.nameLsn := by
  induction files generalizing previous with
  | nil =>
      exact ⟨[], [], rfl, List.forall_mem_nil _, .nil, by simp,
        List.forall_mem_nil _⟩
  | cons file rest inductionHypothesis =>
      rw [analyzeLoop] at clean
      obtain ⟨notBad, noGap, cleanRest⟩ := clean
      by_cases usable : decodeSegmentHeader file.bytes = .ok file.nameLsn
      · obtain ⟨accepted, tail, rfl, headers, chained, starts, unusable⟩ :=
          inductionHypothesis cleanRest
        have isLast :
            (reportSegment previous file
                (accepted ++ tail).isEmpty).lastLsn =
              some
                (((scanRecords file.bytes file.nameLsn).expected : Int) -
                  1) := by
          rw [(reportSegment_counts previous file _).1, fileLast,
            if_pos usable]
        refine ⟨file :: accepted, tail, rfl,
          List.forall_mem_cons.mpr ⟨usable, headers⟩, ?_, ?_, unusable⟩
        · refine List.isChain_cons.mpr ⟨?_, chained⟩
          intro next isNext
          have isStart := starts next _ isNext (by simpa using isLast)
          unfold Follows
          omega
        · rintro first last ⟨⟩ isPrevious
          have isFirst :
              (analyzeSegment file (accepted ++ tail).isEmpty).firstLsn =
                some file.nameLsn := by
            simp [analyzeSegment, usable]
          by_contra apart
          simp [reportSegment, findGap, isPrevious, isFirst, apart] at noGap
      · have isIncomplete :=
          unusable_status previous rest.isEmpty usable
        unfold isBadSegment at notBad
        simp only [not_or, not_and, Bool.not_eq_false] at notBad
        obtain ⟨_, notBadHeader, last⟩ := notBad
        have noReports :=
          List.isEmpty_iff.mp
            (last (isIncomplete.resolve_left notBadHeader))
        obtain rfl : rest = [] := by
          rw [← List.length_eq_zero_iff,
            ← length_analyzeLoop
              (some (reportSegment previous file rest.isEmpty)), noReports]
          rfl
        exact ⟨[], [file], rfl, List.forall_mem_nil _, .nil, by simp,
          by simpa using usable⟩

/-- What is known of the segments behind the ones that are moved away: they
have exactly the records of a range of numbers. -/
theorem hasRecord_clean
    {files : List SegmentFile}
    (clean : CleanReports (analyzeLoop none files))
    {first : Nat}
    {last : Int}
    (starts :
      (analyzeLoop none files).head?.bind SegmentReport.firstLsn =
        some first)
    (ends :
      ((analyzeLoop none files).filterMap SegmentReport.lastLsn).getLast? =
        some last)
    (lsn : Nat) :
    HasRecord files lsn ↔ first ≤ lsn ∧ (lsn : Int) ≤ last := by
  obtain ⟨accepted, tail, rfl, headers, chained, _, unusable⟩ :=
    accepted_of_clean clean
  have usable :
      ∀ file ∈ accepted, segmentHeaderSize ≤ file.bytes.length :=
    fun file member => length_of_decodeSegmentHeader (headers file member)
  have isRecord :
      HasRecord (accepted ++ tail) lsn ↔
        lsn ∈ (recordsOf accepted).map WalRecord.lsn := by
    unfold HasRecord recordsOf
    simp only [List.mem_map, List.mem_flatMap, List.mem_append]
    constructor
    · rintro ⟨file, isAccepted | isTail, header, record, member, isLsn⟩
      · exact ⟨record, ⟨file, isAccepted, member⟩, isLsn⟩
      · exact absurd header (unusable file isTail)
    · rintro ⟨record, ⟨file, isAccepted, member⟩, isLsn⟩
      exact ⟨file, .inl isAccepted, headers file isAccepted, record, member,
        isLsn⟩
  have noTail : tail.filterMap fileLast = [] := by
    rw [List.filterMap_eq_nil_iff]
    intro file member
    rw [fileLast, if_neg (unusable file member)]
  have allLast :
      accepted.filterMap fileLast =
        accepted.map fun file =>
          ((scanRecords file.bytes file.nameLsn).expected : Int) - 1 := by
    rw [← List.filterMap_eq_map]
    refine List.filterMap_congr fun file member => ?_
    simp [fileLast, headers file member]
  rw [filterMap_lastLsn, List.filterMap_append, noTail, List.append_nil,
    allLast, List.getLast?_map] at ends
  rw [isRecord]
  cases accepted with
  | nil =>
      cases ends
  | cons head rest =>
      obtain ⟨final, isFinal⟩ :
          ∃ final, (head :: rest).getLast? = some final :=
        ⟨_, List.getLast?_eq_some_getLast (List.cons_ne_nil _ _)⟩
      obtain ⟨numbered, counted⟩ := recordsOf_numbered usable chained isFinal
      have isFirst :
          (analyzeSegment head (rest ++ tail).isEmpty).firstLsn =
            some head.nameLsn := by
        simp [analyzeSegment, headers head List.mem_cons_self]
      rw [isFinal, Option.map_some, Option.some_inj] at ends
      simp only [List.cons_append, analyzeLoop, List.head?_cons,
        Option.bind_some, reportSegment, isFirst,
        Option.some.injEq] at starts
      rw [numbered, List.mem_range'_1, ← starts, ← ends, counted]
      omega

/-- Sorting the files of a log does not change its records. -/
theorem hasRecord_sortedFiles
    (segments : List SegmentFile)
    (lsn : Nat) :
    HasRecord (sortedFiles segments) lsn ↔ HasRecord segments lsn := by
  unfold HasRecord sortedFiles
  simp only [List.mem_insertionSort]

end Wal

/-- The reports of the segments behind the ones that are moved away. -/
theorem clean_drop
    {files : List SegmentFile}
    {index : Nat}
    (inside : index < files.length)
    (cleanBack : CleanBehindGap ((analyzeLoop none files).drop index)) :
    CleanReports (analyzeLoop none (files.drop index)) ∧
      (analyzeLoop none (files.drop index)).head?.bind
          SegmentReport.firstLsn =
        (analyzeLoop none files)[index]?.bind SegmentReport.firstLsn ∧
      (analyzeLoop none (files.drop index)).filterMap
          SegmentReport.lastLsn =
        ((analyzeLoop none files).drop index).filterMap
          SegmentReport.lastLsn := by
  obtain ⟨first, rest, isBack⟩ :
      ∃ first rest, files.drop index = first :: rest := by
    refine List.exists_cons_of_ne_nil ?_
    rw [ne_eq, List.drop_eq_nil_iff]
    omega
  obtain ⟨report, later, isDrop, isAnalysis⟩ :=
    analyzeLoop_back (files.take index) first rest
  rw [← isBack, List.take_append_drop, List.length_take,
    Nat.min_eq_left (by omega)] at isDrop
  rw [isDrop] at cleanBack
  rw [isBack, isAnalysis, ← List.head?_drop, isDrop]
  exact ⟨⟨cleanBack.1, rfl, cleanBack.2⟩, rfl, rfl⟩

/-- Every number behind the snapshot that has a record still has one. -/
def KeepsRecords (files left : DataFiles) : Prop :=
  ∀ lsn, files.baseLsn < lsn → HasRecord files.segments lsn →
    HasRecord left.segments lsn

/-- A segment that is moved away has records behind those of the snapshot and
of all segments that are left. -/
def LosesRecords (files : DataFiles) : Prop :=
  let reports := (inspectDataDirectory files).log.segments
  coversPrefix (inspectDataDirectory files) ∧
    ∃ segment ∈ reports.take (firstCleanIndex reports),
      ∃ last,
        segment.records ≠ 0 ∧
          segment.lastLsn = some last ∧
          (files.baseLsn : Int) < last ∧
          ∀ left,
            lastLeft (reports.drop (firstCleanIndex reports)) = some left →
              left < last

/-- The reports of some files in front of others, one by one. -/
theorem mem_take_analyzeLoop
    {previous : Option SegmentReport}
    {files : List SegmentFile}
    {index : Nat}
    {file : SegmentFile}
    (member : file ∈ files.take index) :
    ∃ report ∈ (analyzeLoop previous files).take index,
      ∃ before isLast, report = reportSegment before file isLast := by
  induction files generalizing previous index with
  | nil =>
      simp at member
  | cons first rest inductionHypothesis =>
      cases index with
      | zero =>
          simp at member
      | succ index =>
          rw [List.take_succ_cons, List.mem_cons] at member
          rw [analyzeLoop, List.take_succ_cons]
          rcases member with rfl | later
          · exact ⟨_, List.mem_cons_self, previous, rest.isEmpty, rfl⟩
          · obtain ⟨report, isReport, before, isLast, isSame⟩ :=
              inductionHypothesis later
            exact ⟨report, List.mem_cons_of_mem _ isReport, before, isLast,
              isSame⟩

/-- The files behind the reports, one by one. -/
theorem file_of_mem_take
    {previous : Option SegmentReport}
    {files : List SegmentFile}
    {index : Nat}
    {report : SegmentReport}
    (member : report ∈ (analyzeLoop previous files).take index) :
    ∃ file ∈ files.take index,
      ∃ before isLast, report = reportSegment before file isLast := by
  induction files generalizing previous index with
  | nil =>
      simp [analyzeLoop] at member
  | cons first rest inductionHypothesis =>
      cases index with
      | zero =>
          simp at member
      | succ index =>
          rw [analyzeLoop, List.take_succ_cons, List.mem_cons] at member
          rw [List.take_succ_cons]
          rcases member with rfl | later
          · exact ⟨first, List.mem_cons_self, previous, rest.isEmpty, rfl⟩
          · obtain ⟨file, isFile, before, isLast, isSame⟩ :=
              inductionHypothesis later
            exact ⟨file, List.mem_cons_of_mem _ isFile, before, isLast,
              isSame⟩

/-- The records that are left when the front of a log is moved away. -/
theorem hasRecord_behind
    {files left : DataFiles}
    (covers : coversPrefix (inspectDataDirectory files))
    (isLeft :
      sortedFiles left.segments =
        (sortedFiles files.segments).drop
          (firstCleanIndex (inspectDataDirectory files).log.segments)) :
    ∃ first : Nat, ∃ last : Int,
      first ≤ files.baseLsn + 1 ∧
        lastLeft
            ((inspectDataDirectory files).log.segments.drop
              (firstCleanIndex
                (inspectDataDirectory files).log.segments)) =
          some last ∧
        ∀ lsn,
          HasRecord left.segments lsn ↔ first ≤ lsn ∧ (lsn : Int) ≤ last := by
  have isReports :
      (inspectDataDirectory files).log.segments =
        analyzeLoop none (sortedFiles files.segments) := rfl
  obtain ⟨_, inside, _, small⟩ := covers
  change ((inspectDataDirectory files).log.segments[_]?.bind _).getD
    (files.baseLsn + 2) ≤ files.baseLsn + 1 at small
  have isLast :=
    (@inspectLog_drop files.segments files.distinct_segments
      (inspectDataDirectory files).log.segments rfl _ inside
      (cleanBehindGap_firstCleanIndex _) files.baseLsn small _ rfl).2.2.2
  have cleanBack :=
    cleanBehindGap_firstCleanIndex (inspectDataDirectory files).log.segments
  generalize
    firstCleanIndex (inspectDataDirectory files).log.segments = index at *
  rw [isReports] at inside small cleanBack
  rw [length_analyzeLoop] at inside
  obtain ⟨clean, starts, ends⟩ := clean_drop inside cleanBack
  cases isFirst :
      (analyzeLoop none (sortedFiles files.segments))[index]?.bind
        SegmentReport.firstLsn with
  | none =>
      rw [isFirst, Option.getD_none] at small
      omega
  | some first =>
      rw [isFirst, Option.getD_some] at small
      refine ⟨first, _, small, isLast, fun lsn => ?_⟩
      rw [← hasRecord_sortedFiles, isLeft]
      exact hasRecord_clean clean (starts.trans isFirst)
        ((congrArg List.getLast? ends).trans isLast) lsn

/-- Moving the front of a log away keeps the records exactly if no segment of
it reaches behind the rest. -/
theorem keepsRecords_planned
    {files left : DataFiles}
    (covers : coversPrefix (inspectDataDirectory files))
    (isLeft :
      sortedFiles left.segments =
        (sortedFiles files.segments).drop
          (firstCleanIndex (inspectDataDirectory files).log.segments)) :
    KeepsRecords files left ↔ ¬ LosesRecords files := by
  obtain ⟨first, final, small, isFinal, hasLeft⟩ :=
    hasRecord_behind covers isLeft
  constructor
  · rintro keeps ⟨_, segment, member, last, some, isLast, above, behind⟩
    obtain ⟨file, isFile, before, atEnd, rfl⟩ :=
      @file_of_mem_take none (sortedFiles files.segments) _ _ member
    obtain ⟨isFileLast, counts⟩ := reportSegment_counts before file atEnd
    rw [isFileLast, fileLast] at isLast
    split_ifs at isLast with header
    have scanned :
        Scanned file.bytes segmentHeaderSize file.nameLsn
          (scanRecords file.bytes file.nameLsn) :=
      scanned_scanSegment (length_of_decodeSegmentHeader header) _ _
    rw [counts header] at some
    have counted := scanned.counted
    have isNumber := Option.some_inj.mp isLast
    have isBehind := behind final isFinal
    have has :
        HasRecord files.segments
          ((scanRecords file.bytes file.nameLsn).expected - 1) := by
      refine ⟨file,
        (List.mem_insertionSort _).mp (List.mem_of_mem_take isFile), header,
        (mem_records_iff header _).mpr ?_⟩
      omega
    have kept := (hasLeft _).mp (keeps _ (by omega) has)
    omega
  · rintro complete lsn above ⟨file, isFile, header, record, member, isLsn⟩
    have sorted : file ∈ sortedFiles files.segments :=
      (List.mem_insertionSort _).mpr isFile
    rw [← List.take_append_drop
      (firstCleanIndex (inspectDataDirectory files).log.segments)
      (sortedFiles files.segments), ← isLeft, List.mem_append] at sorted
    rcases sorted with isMoved | isKept
    · obtain ⟨report, isReport, before, isLast, rfl⟩ :=
        @mem_take_analyzeLoop none _ _ _ isMoved
      obtain ⟨isFileLast, counts⟩ := reportSegment_counts before file isLast
      rw [fileLast, if_pos header] at isFileLast
      have range := (mem_records_iff header lsn).mp ⟨record, member, isLsn⟩
      refine (hasLeft lsn).mpr ⟨by omega, ?_⟩
      by_contra beyond
      refine complete ⟨covers, _, isReport, _, ?_, isFileLast, by omega, ?_⟩
      · rw [counts header]
        exact (List.length_pos_of_mem member).ne'
      · intro other isOther
        obtain rfl := Option.some_inj.mp (isFinal.symm.trans isOther)
        omega
    · exact ⟨file, (List.mem_insertionSort _).mp isKept, header, record,
        member, isLsn⟩

/-- Everything in front of the first damage is still there, byte for byte. -/
def KeepsFront (files : DataFiles) (damage : LogDamage) (left : DataFiles) :
    Prop :=
  ∀ file ∈ files.segments,
    (file.nameLsn < damage.file → file ∈ left.segments) ∧
      (file.nameLsn = damage.file → 0 < damage.offset →
        ∃ kept ∈ left.segments,
          kept.nameLsn = file.nameLsn ∧
            kept.bytes = file.bytes.take damage.offset)

/-- Everything that is no longer in the log directory is in quarantine. -/
def MovesToQuarantine (files : DataFiles) (left : RepairState) : Prop :=
  ∀ file ∈ files.segments,
    file ∈ left.files.segments ∨
      Quarantined.segment file ∈ left.quarantine ∨
      ∃ kept ∈ left.files.segments,
        ∃ tail,
          kept.nameLsn = file.nameLsn ∧
            file.bytes = kept.bytes ++ tail ∧
            Quarantined.tail file.nameLsn tail ∈ left.quarantine

/-- The repair says the truth about what it loses. -/
structure HonestRepair
    (now : JsString)
    (lock : Option LockDescription)
    (options : RepairOptions)
    (files : DataFiles) : Prop where
  lossless :
    ∀ action ∈
        (planRepair (inspectDataDirectory files) lock options).planned,
      action.dataLoss = false →
        KeepsRecords files
          (RepairState.run now { files := files } action.step).1.files
  truncation :
    ∀ action ∈
        (planRepair (inspectDataDirectory files) lock options).planned,
      ∀ dropped cut, action.step = .truncateLog dropped cut →
        ∃ damage left,
          (inspectDataDirectory files).log.damage = some damage ∧
            RepairState.run now { files := files } action.step =
              (left, none) ∧
            KeepsFront files damage left.files ∧
            MovesToQuarantine files left

/-- The segments of a truncated log, one by one. -/
theorem Truncated.honest
    {files : DataFiles}
    {left : RepairState}
    {early late : List SegmentFile}
    {file : SegmentFile}
    (isDamaged :
      DamagedAt (sortedFiles files.segments) (inspectLog files.segments)
        early file late)
    (truncated : Truncated { files := files } left early file late) :
    ∃ damage,
      (inspectDataDirectory files).log.damage = some damage ∧
        KeepsFront files damage left.files ∧
        MovesToQuarantine files left := by
  obtain ⟨damage, isDamage, isNamed, isOffset⟩ := isDamaged.named
  have kept := truncated.kept
  have isKept :
      ∀ other, other ∈ keptFiles early file late.isEmpty →
        other ∈ left.files.segments := by
    intro other member
    rw [← kept] at member
    exact (List.mem_insertionSort _).mp member
  have inFront : ∀ other ∈ early, other ∈ left.files.segments := by
    intro other member
    refine isKept other ?_
    unfold keptFiles
    split_ifs
    · exact List.mem_append_left _ member
    · exact member
  have sorted := sortedFiles_pairwise files.distinct_segments
  rw [isDamaged.splits, List.pairwise_append] at sorted
  obtain ⟨_, lateSorted, earlySorted⟩ := sorted
  have isPlace :
      ∀ other ∈ files.segments,
        other ∈ early ∨ other = file ∨ other ∈ late := by
    intro other member
    have inSorted : other ∈ sortedFiles files.segments :=
      (List.mem_insertionSort _).mpr member
    rw [isDamaged.splits] at inSorted
    simpa using inSorted
  have cutFile_mem :
      (reportSegment (lastReport none early) file late.isEmpty).status =
          .corrupt →
        cutFile file
            (reportSegment (lastReport none early) file
              late.isEmpty).validBytes ∈
          left.files.segments := by
    intro corrupt
    refine isKept _ ?_
    rw [keptFiles, if_pos corrupt]
    simp
  refine ⟨damage, isDamage, ?_, ?_⟩
  · intro other member
    rw [isNamed]
    constructor
    · intro before
      rcases isPlace other member with isEarly | rfl | isLate
      · exact inFront other isEarly
      · exact absurd before (Nat.lt_irrefl _)
      · exact absurd before
          (Nat.lt_asymm (List.rel_of_pairwise_cons lateSorted isLate))
    · intro isName positive
      obtain rfl : other = file := by
        rcases isPlace other member with isEarly | isFile | isLate
        · exact absurd isName
            (Nat.ne_of_lt
              (earlySorted other isEarly file List.mem_cons_self))
        · exact isFile
        · exact absurd isName.symm
            (Nat.ne_of_lt (List.rel_of_pairwise_cons lateSorted isLate))
      rcases isOffset with isZero | ⟨corrupt, isValid⟩
      · omega
      · refine ⟨_, cutFile_mem corrupt, rfl, ?_⟩
        rw [isValid]
        rfl
  · intro other member
    rcases isPlace other member with isEarly | rfl | isLate
    · exact .inl (inFront other isEarly)
    · by_cases corrupt :
          (reportSegment (lastReport none early) other late.isEmpty).status =
            .corrupt
      · by_cases more :
            (reportSegment (lastReport none early) other
              late.isEmpty).validBytes < other.bytes.length
        · exact .inr (.inr ⟨_, cutFile_mem corrupt, _, rfl,
            (List.take_append_drop _ _).symm, truncated.cut corrupt more⟩)
        · have whole := cutFile_mem corrupt
          rw [cutFile, List.take_of_length_le (by omega)] at whole
          exact .inl whole
      · exact .inr (.inl (truncated.refused corrupt))
    · exact .inr (.inl (truncated.moved other isLate))

/-- The planned actions, one by one. -/
theorem mem_planned
    {files : DataFiles}
    {lock : Option LockDescription}
    {options : RepairOptions}
    {action : PlannedAction}
    (member :
      action ∈
        (planRepair (inspectDataDirectory files) lock options).planned) :
    (∃ moveOld, action.step = .rebuildManifest moveOld) ∨
      action.step = .clearLock ∨
      action ∈ (planLog (inspectDataDirectory files)).planned := by
  unfold planRepair at member
  simp only [List.mem_append] at member
  rcases member with (isManifest | isLog) | isLock
  · have plan := manifestPlan (inspectDataDirectory files)
    revert isManifest plan
    generalize planManifest (inspectDataDirectory files) = manifest
    intro isManifest plan
    cases plan with
    | blocked reason =>
        cases isManifest
    | rebuild other moveOld isRebuild _ _ =>
        obtain rfl := List.mem_singleton.mp isManifest
        exact .inl ⟨moveOld, isRebuild⟩
    | nothing fine =>
        cases isManifest
  · exact .inr (.inr isLog)
  · refine .inr (.inl ?_)
    cases lock with
    | none =>
        cases isLock
    | some lock =>
        unfold planLock at isLock
        cases isState : lock.state with
        | foreign =>
            simp only [isState, List.mem_singleton] at isLock
            rw [isLock]
        | _ =>
            simp [isState] at isLock

/-- A segment that is added to a log takes nothing from it. -/
theorem keepsRecords_createSegment
    (files : DataFiles)
    (firstLsn : Nat) :
    KeepsRecords files
      (RepairState.createSegment { files := files } firstLsn).1.files := by
  intro lsn _ has
  refine has.mono ?_
  unfold RepairState.createSegment
  split_ifs
  · exact List.Subset.refl _
  · simp only
    split
    · exact List.Subset.refl _
    · rename_i wal isWal
      split_ifs
      · unfold DataFiles.segments
        rw [isWal]
        exact List.subset_append_left _ _
      · exact List.Subset.refl _

/-- A log whose front is covered by the snapshot loses that front. -/
theorem planLog_of_covers
    {files : DataFiles}
    (covers : coversPrefix (inspectDataDirectory files)) :
    planLog (inspectDataDirectory files) =
      { planned := [planPrefix (inspectDataDirectory files)] } := by
  have damaged := covers.1
  have problem :
      (inspectDataDirectory files).recovery.problems ≠ [] := by
    rw [ne_eq, problems_iff, recoverable_iff]
    rintro ⟨_, undamaged, _⟩
    exact damaged undamaged
  rw [planLog, if_neg problem, if_neg fun fine => damaged fine.1,
    if_pos covers]

/-- The segments that are left when the front of a log has been moved away. -/
theorem sortedFiles_planPrefix
    (now : JsString)
    (files : DataFiles) :
    sortedFiles
        (RepairState.run now { files := files }
          (planPrefix (inspectDataDirectory files)).step).1.files.segments =
      (sortedFiles files.segments).drop
        (firstCleanIndex (inspectDataDirectory files).log.segments) := by
  have names :
      ((inspectDataDirectory files).log.segments.take
          (firstCleanIndex (inspectDataDirectory files).log.segments)).map
          SegmentReport.file =
        ((sortedFiles files.segments).take
          (firstCleanIndex
            (inspectDataDirectory files).log.segments)).map
          SegmentFile.nameLsn := by
    rw [List.map_take, map_file_reports, List.map_take]
  have moves :=
    @RepairState.moveSegments_sorted { files := files }
      ((sortedFiles files.segments).take
        (firstCleanIndex (inspectDataDirectory files).log.segments))
      (List.take_sublist _ _)
  change sortedFiles
    (RepairState.moveSegments { files := files } _).1.files.segments = _
  rw [names, moves]
  simp only
  rw [DataFiles.segments_removeSegments]
  exact
    (sortedFiles_unlinkAll files.distinct_segments
      (List.take_append_drop _ _).symm).1

/-- The actions on the log that are announced as lossless keep the records. -/
theorem keepsRecords_planLog
    {files : DataFiles}
    (complete : ¬ LosesRecords files)
    (now : JsString)
    {action : PlannedAction}
    (member : action ∈ (planLog (inspectDataDirectory files)).planned)
    (announced : action.dataLoss = false) :
    KeepsRecords files
      (RepairState.run now { files := files } action.step).1.files := by
  have plan := logPlan files
  revert member plan
  generalize planLog (inspectDataDirectory files) = log
  intro member plan
  cases plan with
  | nothing undamaged reaches =>
      cases member
  | quarantine covers =>
      obtain rfl := List.mem_singleton.mp member
      exact
        (keepsRecords_planned covers (sortedFiles_planPrefix now files)).mpr
          complete
  | blocked reason =>
      cases member
  | newLog uncovered ends =>
      rcases List.mem_cons.mp member with rfl | isCreate
      · cases announced
      · split_ifs at isCreate with positive
        · obtain rfl := List.mem_singleton.mp isCreate
          exact keepsRecords_createSegment files _
        · cases isCreate
  | cut uncovered problem covered reaches =>
      obtain rfl := List.mem_singleton.mp member
      cases announced

/-- A truncation keeps what is in front of the damage and moves the rest. -/
theorem honest_planLog
    (files : DataFiles)
    (now : JsString)
    {action : PlannedAction}
    (member : action ∈ (planLog (inspectDataDirectory files)).planned)
    {dropped : List Nat}
    {cut : Option (Nat × Nat)}
    (isCut : action.step = .truncateLog dropped cut) :
    ∃ damage left,
      (inspectDataDirectory files).log.damage = some damage ∧
        RepairState.run now { files := files } action.step = (left, none) ∧
        KeepsFront files damage left.files ∧
        MovesToQuarantine files left := by
  have plan := logPlan files
  revert member plan
  generalize planLog (inspectDataDirectory files) = log
  intro member plan
  cases plan with
  | nothing undamaged reaches =>
      cases member
  | quarantine covers =>
      obtain rfl := List.mem_singleton.mp member
      cases isCut
  | blocked reason =>
      cases member
  | newLog uncovered ends =>
      rcases List.mem_cons.mp member with rfl | isCreate
      · cases isCut
      · split_ifs at isCreate with positive
        · obtain rfl := List.mem_singleton.mp isCreate
          cases isCut
        · cases isCreate
  | cut uncovered problem covered reaches =>
      obtain rfl := List.mem_singleton.mp member
      have damaged := damaged_of_cut problem covered reaches
      obtain ⟨early, file, late, isDamaged⟩ := damagedAt_of_damage damaged
      obtain ⟨left, runs, truncated⟩ :=
        @DamagedAt.truncated { files := files } early late file isDamaged _ _
          rfl now
      obtain ⟨damage, isDamage, keeps, moves⟩ := truncated.honest isDamaged
      exact ⟨damage, left, isDamage, runs, keeps, moves⟩

/--
The repair says the truth about what it loses exactly unless a segment that is
moved away as covered by the snapshot reaches behind it and behind everything
that is left.
-/
theorem honestRepair_iff
    (now : JsString)
    (lock : Option LockDescription)
    (options : RepairOptions)
    (files : DataFiles) :
    HonestRepair now lock options files ↔ ¬ LosesRecords files := by
  constructor
  · rintro honest loses
    have covers := loses.1
    refine
      (keepsRecords_planned covers (sortedFiles_planPrefix now files)).mp ?_
        loses
    refine honest.lossless _ ?_ rfl
    unfold planRepair
    rw [planLog_of_covers covers]
    simp
  · intro complete
    constructor
    · intro action member announced
      rcases mem_planned member with ⟨moveOld, isRebuild⟩ | isClear | isLog
      · rw [isRebuild]
        exact fun lsn _ has => has
      · rw [isClear]
        exact fun lsn _ has => has
      · exact keepsRecords_planLog complete now isLog announced
    · intro action member dropped cut isCut
      rcases mem_planned member with ⟨moveOld, isRebuild⟩ | isClear | isLog
      · rw [isRebuild] at isCut
        cases isCut
      · rw [isClear] at isCut
        cases isCut
      · exact honest_planLog files now isLog isCut

/-- A snapshot of no collections, up to the first record. -/
def emptySnapshot : SnapshotFile where
  nameLsn := 1
  bytes :=
    snapshotHeader 1 0 ++
      (BigEndian.encode 4 (Crc32.crc32 (snapshotHeader 1 0)) ++ endMagic)

/-- A log of three records, and a second segment that starts in the middle of
the first one and has only one of them. -/
def overlappingLog : DataFiles where
  root := utf16 "data"
  manifest :=
    .object ⟨.text storageFormat, .integer 2, .absent, .absent, .absent⟩
  snapshots := [emptySnapshot]
  wal :=
    some
      { segments :=
          [⟨1, encodeSegmentHeader 1 ++ recordBytes 1 1 [7] ++
              recordBytes 2 1 [7] ++ recordBytes 3 1 [7]⟩,
            ⟨2, encodeSegmentHeader 2 ++ recordBytes 2 1 [7]⟩]
        otherNames := []
        distinct := by simp }

/-- The third record is lost by an action that says that no data is lost. -/
theorem not_honestRepair_overlapping :
    ¬ HonestRepair (utf16 "") none {} overlappingLog := by
  intro honest
  have planned :
      (planRepair (inspectDataDirectory overlappingLog) none {}).planned =
        [planPrefix (inspectDataDirectory overlappingLog)] := by
    decide +kernel
  have keeps :=
    honest.lossless (planPrefix (inspectDataDirectory overlappingLog))
      (by rw [planned]; exact List.mem_singleton_self _) rfl
  have has : HasRecord overlappingLog.segments 3 := by
    decide +kernel
  have isLeft :=
    keeps 3 (by decide +kernel) has
  revert isLeft
  decide +kernel

end SinterDb
