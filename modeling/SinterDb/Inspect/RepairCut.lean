import SinterDb.Inspect.RepairFiles
import SinterDb.Inspect.RepairReports

namespace SinterDb

open Unicode
open Wal

/-!
# The reports of a log that has been cut

Segments in front of the first damage are reported as before when everything
behind them is gone, and a segment that is cut off behind its intact records is
reported without damage.
-/

namespace Wal

/-- A segment that is not damaged is reported the same way when it is the last
one. -/
theorem reportSegment_last
    {previous : Option SegmentReport}
    {file : SegmentFile}
    (intact : (reportSegment previous file false).status ≠ .corrupt) :
    reportSegment previous file true =
      reportSegment previous file false := by
  have sameAnalysis :
      analyzeSegment file true = analyzeSegment file false := by
    unfold reportSegment at intact
    unfold analyzeSegment at intact ⊢
    cases header : decodeSegmentHeader file.bytes with
    | failed reason =>
        rfl
    | ok firstLsn =>
        by_cases misnamed : firstLsn ≠ file.nameLsn
        · simp [misnamed]
        · simp only [header, if_neg misnamed, segmentStatus] at intact ⊢
          cases stop : (scanRecords file.bytes firstLsn).stop with
          | torn reason =>
              simp [stop] at intact
          | _ =>
              rfl
  unfold reportSegment
  rw [sameAnalysis]

/-- Segments that are fine are reported the same way when nothing is behind
them. -/
theorem analyzeLoop_passed
    {previous : Option SegmentReport}
    {files : List SegmentFile}
    (passed : ∀ report ∈ innerReports previous files, Passed report) :
    analyzeLoop previous files = innerReports previous files := by
  induction files generalizing previous with
  | nil =>
      rfl
  | cons file rest inductionHypothesis =>
      obtain ⟨first, others⟩ := List.forall_mem_cons.mp passed
      have sameReport :
          reportSegment previous file rest.isEmpty =
            reportSegment previous file false := by
        cases isLast : rest.isEmpty with
        | false =>
            rfl
        | true =>
            exact reportSegment_last first.intact
      rw [analyzeLoop, innerReports, sameReport, inductionHypothesis others]

/-- The files behind a split of their reports. -/
theorem split_analyzeLoop
    {files : List SegmentFile}
    {front back : List SegmentReport}
    {segment : SegmentReport}
    (splits : analyzeLoop none files = front ++ segment :: back) :
    ∃ early file late,
      files = early ++ file :: late ∧
        front = innerReports none early ∧
        segment = reportSegment (lastReport none early) file late.isEmpty := by
  have size : front.length < files.length := by
    rw [← length_analyzeLoop none files, splits]
    simp
  refine ⟨files.take front.length, files.get ⟨front.length, size⟩,
    files.drop (front.length + 1), ?_, ?_⟩
  · simp [List.getElem_cons_drop]
  · have isFiles :
        files =
          files.take front.length ++
            files.get ⟨front.length, size⟩ ::
              files.drop (front.length + 1) := by
      simp [List.getElem_cons_drop]
    have inner :=
      analyzeLoop_append none (files.take front.length)
        (List.cons_ne_nil (files.get ⟨front.length, size⟩)
          (files.drop (front.length + 1)))
    rw [← isFiles, splits, analyzeLoop] at inner
    obtain ⟨sameFront, sameBack⟩ :=
      List.append_inj inner
        (by rw [length_innerReports, List.length_take]; omega)
    exact ⟨sameFront, (List.cons.inj sameBack).1⟩

/-- What is known of a segment with a damaged record. -/
structure CorruptFile (file : SegmentFile) (offset : Nat) : Prop where
  header : decodeSegmentHeader file.bytes = .ok file.nameLsn
  isOffset : offset = (scanRecords file.bytes file.nameLsn).offset
  behind : segmentHeaderSize ≤ offset
  inside : offset ≤ file.bytes.length

/-- A segment that is reported as corrupt has a usable header. -/
theorem corruptFile_of_status
    {previous : Option SegmentReport}
    {file : SegmentFile}
    {isLast : Bool}
    (corrupt : (reportSegment previous file isLast).status = .corrupt) :
    CorruptFile file (reportSegment previous file isLast).validBytes := by
  unfold reportSegment analyzeSegment at corrupt ⊢
  cases header : decodeSegmentHeader file.bytes with
  | failed reason =>
      rw [header] at corrupt
      simp only at corrupt
      split_ifs at corrupt
  | ok firstLsn =>
      rw [header] at corrupt
      by_cases misnamed : firstLsn ≠ file.nameLsn
      · simp [misnamed] at corrupt
      · obtain rfl := not_not.mp misnamed
        have scanned :=
          scanned_scanSegment (length_of_decodeSegmentHeader header)
            file.bytes.length file.nameLsn
        simp only [if_neg misnamed]
        exact ⟨header, rfl, scanned.least, scanned.inside⟩

/-- A segment that is cut off behind its intact records. -/
def cutFile (file : SegmentFile) (offset : Nat) : SegmentFile :=
  { file with bytes := file.bytes.take offset }

/-- The report of a segment that has been cut off. -/
theorem reportSegment_cutFile
    {previous : Option SegmentReport}
    {file : SegmentFile}
    {isLast : Bool}
    (corrupt : (reportSegment previous file isLast).status = .corrupt) :
    (reportSegment previous
        (cutFile file (reportSegment previous file isLast).validBytes)
        true).status = .ok ∧
      (reportSegment previous
        (cutFile file (reportSegment previous file isLast).validBytes)
        true).firstLsn = (reportSegment previous file isLast).firstLsn ∧
      (reportSegment previous
        (cutFile file (reportSegment previous file isLast).validBytes)
        true).lastLsn = (reportSegment previous file isLast).lastLsn ∧
      (reportSegment previous
        (cutFile file (reportSegment previous file isLast).validBytes)
        true).gap = (reportSegment previous file isLast).gap := by
  obtain ⟨header, isOffset, behind, inside⟩ := corruptFile_of_status corrupt
  generalize
    (reportSegment previous file isLast).validBytes = offset at *
  subst isOffset
  have cutHeader :
      decodeSegmentHeader
          (file.bytes.take (scanRecords file.bytes file.nameLsn).offset) =
        .ok file.nameLsn :=
    (decodeSegmentHeader_take behind inside).trans header
  have cutScan :=
    scanRecords_take (length_of_decodeSegmentHeader header) file.nameLsn
  unfold reportSegment analyzeSegment cutFile
  simp only [header, cutHeader, ne_eq, not_true, if_false, cutScan,
    segmentStatus]
  exact ⟨trivial, trivial, trivial, rfl⟩

end Wal

/-- Where the first damage of a log is, in front of which everything is
fine. -/
structure DamagedAt
    (sorted : List SegmentFile)
    (log : LogReport)
    (early : List SegmentFile)
    (file : SegmentFile)
    (late : List SegmentFile) : Prop where
  splits : sorted = early ++ file :: late
  passed : ∀ report ∈ innerReports none early, Passed report
  named :
    ∃ damage,
      log.damage = some damage ∧
        damage.file = file.nameLsn ∧
        (damage.offset = 0 ∨
          (reportSegment (lastReport none early) file late.isEmpty).status =
              .corrupt ∧
            damage.offset =
              (reportSegment (lastReport none early) file
                late.isEmpty).validBytes)
  numbers :
    log.firstLsn =
        (LogSummary.addAll {}
          (if (reportSegment (lastReport none early) file
              late.isEmpty).status = .corrupt ∧
              (reportSegment (lastReport none early) file
                late.isEmpty).gap = none then
            innerReports none early ++
              [reportSegment (lastReport none early) file late.isEmpty]
          else
            innerReports none early)).firstLsn ∧
      log.lastLsn =
        (LogSummary.addAll {}
          (if (reportSegment (lastReport none early) file
              late.isEmpty).status = .corrupt ∧
              (reportSegment (lastReport none early) file
                late.isEmpty).gap = none then
            innerReports none early ++
              [reportSegment (lastReport none early) file late.isEmpty]
          else
            innerReports none early)).lastLsn

/-- A damaged log has a first damage. -/
theorem damagedAt_of_damage
    {segments : List SegmentFile}
    (damaged : (inspectLog segments).damage ≠ none) :
    ∃ early file late,
      DamagedAt (sortedFiles segments) (inspectLog segments) early file
        late := by
  have isFound := found (analyzeLoop none (sortedFiles segments))
  have isReport :
      inspectLog segments =
        summarizeLog (analyzeLoop none (sortedFiles segments)) := rfl
  unfold summarizeLog at isReport
  generalize
    summarizeLoop {} (analyzeLoop none (sortedFiles segments)) = summary at *
  have noDamage :
      ∀ reports : List SegmentReport,
        (∀ report ∈ reports, Passed report) →
        (∀ report ∈ reports, Fits report) →
        (LogSummary.addAll {} reports).damage = none := by
    intro reports passed fits
    exact (addAll_numbers fits (fun report member =>
      (passed report member).header) {}).1
  have fits := fits_analyzeLoop none (sortedFiles segments)
  rw [isReport]
  rw [isReport] at damaged
  cases isFound with
  | clean front tail splits passed isTail =>
      refine absurd (noDamage front passed ?_) damaged
      intro report member
      exact fits report (by rw [splits]; exact List.mem_append_left _ member)
  | refused front back segment reason splits passed isRefused =>
      obtain ⟨early, file, late, isFiles, rfl, rfl⟩ :=
        split_analyzeLoop splits
      refine ⟨early, file, late, isFiles, passed, ⟨_, rfl, ?_, .inl rfl⟩, ?_⟩
      · exact (analyzeSegment_numbers file late.isEmpty true).1
      · rw [if_neg]
        · exact ⟨rfl, rfl⟩
        · rintro ⟨corrupt, noGap⟩
          rw [corrupt] at isRefused
          simp [noGap] at isRefused
  | corrupt front back segment reason splits passed isCorrupt noGap =>
      obtain ⟨early, file, late, isFiles, rfl, rfl⟩ :=
        split_analyzeLoop splits
      refine ⟨early, file, late, isFiles, passed,
        ⟨_, rfl, ?_, .inr ⟨isCorrupt, rfl⟩⟩, ?_⟩
      · exact (analyzeSegment_numbers file late.isEmpty true).1
      · rw [if_pos ⟨isCorrupt, noGap⟩]
        exact ⟨rfl, rfl⟩

/-- The reports of a damaged log. -/
theorem DamagedAt.reports
    {segments early late : List SegmentFile}
    {file : SegmentFile}
    (isDamaged :
      DamagedAt (sortedFiles segments) (inspectLog segments) early file
        late) :
    (inspectLog segments).segments =
      innerReports none early ++
        reportSegment (lastReport none early) file late.isEmpty ::
          analyzeLoop
            (some (reportSegment (lastReport none early) file late.isEmpty))
            late := by
  change analyzeLoop none (sortedFiles segments) = _
  rw [isDamaged.splits, analyzeLoop_append none early (List.cons_ne_nil _ _)]
  rfl

/-- The reports of a log have different names. -/
theorem nodup_reports
    {segments : List SegmentFile}
    (distinct : (segments.map SegmentFile.nameLsn).Nodup) :
    ((inspectLog segments).segments.map SegmentReport.file).Nodup := by
  change ((analyzeLoop none (sortedFiles segments)).map _).Nodup
  rw [map_file_analyzeLoop]
  exact nodup_sortedFiles distinct

/-- The segment that the damage names is the first damaged one. -/
theorem DamagedAt.segment_eq
    {segments early late : List SegmentFile}
    {file : SegmentFile}
    (distinct : (segments.map SegmentFile.nameLsn).Nodup)
    (isDamaged :
      DamagedAt (sortedFiles segments) (inspectLog segments) early file
        late)
    {damage : LogDamage}
    (isDamage : (inspectLog segments).damage = some damage)
    {segment : SegmentReport}
    (member : segment ∈ (inspectLog segments).segments)
    (isNamed : segment.file = damage.file) :
    segment =
      reportSegment (lastReport none early) file late.isEmpty := by
  obtain ⟨other, isOther, named, _⟩ := isDamaged.named
  obtain rfl := Option.some_inj.mp (isDamage.symm.trans isOther)
  refine List.inj_on_of_nodup_map (nodup_reports distinct) member ?_ ?_
  · rw [isDamaged.reports]
    simp
  · rw [isNamed, named]
    exact (analyzeSegment_numbers file late.isEmpty true).1.symm

/-- The truncation keeps everything in front of the first damage, and the
damaged segment up to its intact records if its header can be used. -/
theorem DamagedAt.truncationPoint
    {segments early late : List SegmentFile}
    {file : SegmentFile}
    (distinct : (segments.map SegmentFile.nameLsn).Nodup)
    (isDamaged :
      DamagedAt (sortedFiles segments) (inspectLog segments) early file
        late) :
    truncationPoint (inspectLog segments).segments
        (inspectLog segments).damage =
      if (reportSegment (lastReport none early) file late.isEmpty).status =
          .corrupt then
        (early.length + 1,
          some (file.nameLsn,
            (reportSegment (lastReport none early) file
              late.isEmpty).validBytes))
      else
        (early.length, none) := by
  obtain ⟨damage, isDamage, isNamed, _⟩ := isDamaged.named
  have isReports := isDamaged.reports
  have names := nodup_reports distinct
  have isFile :
      (reportSegment (lastReport none early) file late.isEmpty).file =
        file.nameLsn :=
    (analyzeSegment_numbers file late.isEmpty true).1
  have size := length_innerReports none early
  have corruptFile := @corruptFile_of_status (lastReport none early) file
    late.isEmpty
  rw [isReports] at names ⊢
  rw [isDamage]
  generalize
    reportSegment (lastReport none early) file late.isEmpty = segment at *
  generalize analyzeLoop (some segment) late = back at *
  generalize innerReports none early = front at *
  have index :
      (front ++ segment :: back).findIdx
          (fun report => report.file == damage.file) = early.length := by
    rw [List.findIdx_append, List.findIdx_eq_length.mpr, if_neg (by omega),
      List.findIdx_cons]
    · simp [isNamed, isFile, size]
    · intro report member
      rw [List.map_append, List.nodup_append] at names
      have apart :=
        names.2.2 _ (List.mem_map_of_mem member) segment.file (by simp)
      rw [isNamed, ← isFile]
      simpa using apart
  have found : (front ++ segment :: back)[early.length]? = some segment := by
    rw [← size]
    simp
  unfold SinterDb.truncationPoint
  simp only [index, found]
  by_cases corrupt : segment.status = .corrupt
  · have behind := (corruptFile corrupt).behind
    simp only [corrupt, true_and, if_true, isFile]
    split_ifs with long
    · rfl
    · rw [show segment.validBytes = segmentHeaderSize by omega]
  · simp [corrupt]

/-- The segments that a truncation leaves, in the order of their names. -/
def keptFiles
    (early : List SegmentFile)
    (file : SegmentFile)
    (isLast : Bool) : List SegmentFile :=
  if (reportSegment (lastReport none early) file isLast).status =
      .corrupt then
    early ++
      [cutFile file
        (reportSegment (lastReport none early) file isLast).validBytes]
  else
    early

/-- The segment in front of which a truncation should stop, but does not: it
does not follow on, and one of its records is damaged. -/
def CorruptBehindGap (segment : SegmentReport) : Prop :=
  segment.status = .corrupt ∧ segment.gap ≠ none

/-- The numbers of a summary do not depend on the status of a segment. -/
theorem addAll_last
    {front : List SegmentReport}
    {segment other : SegmentReport}
    (fits : ∀ report ∈ front, Fits report)
    (passed : ∀ report ∈ front, Passed report)
    (fitsSegment : Fits segment)
    (usable :
      segment.status ≠ .badHeader ∧ segment.status ≠ .incompleteHeader)
    (fitsOther : Fits other)
    (usableOther :
      other.status ≠ .badHeader ∧ other.status ≠ .incompleteHeader)
    (sameFirst : other.firstLsn = segment.firstLsn)
    (sameLast : other.lastLsn = segment.lastLsn) :
    (LogSummary.addAll {} (front ++ [other])).firstLsn =
        (LogSummary.addAll {} (front ++ [segment])).firstLsn ∧
      (LogSummary.addAll {} (front ++ [other])).lastLsn =
        (LogSummary.addAll {} (front ++ [segment])).lastLsn := by
  have numbers :
      ∀ {last : SegmentReport},
        Fits last →
        last.status ≠ .badHeader ∧ last.status ≠ .incompleteHeader →
        (LogSummary.addAll {} (front ++ [last])).firstLsn =
            (front ++ [last]).head?.bind SegmentReport.firstLsn ∧
          (LogSummary.addAll {} (front ++ [last])).lastLsn =
            last.lastLsn.getD 0 := by
    intro last fitsLast usableLast
    obtain ⟨_, firstLsn, lastLsn⟩ :=
      @addAll_numbers (front ++ [last])
        (List.forall_mem_append.mpr
          ⟨fits, by simpa using fitsLast⟩)
        (List.forall_mem_append.mpr
          ⟨fun report member => (passed report member).header,
            by simpa using usableLast⟩) {}
    exact ⟨firstLsn, by simpa using lastLsn⟩
  obtain ⟨isFirst, isLast⟩ := numbers fitsSegment usable
  obtain ⟨isOtherFirst, isOtherLast⟩ := numbers fitsOther usableOther
  rw [isFirst, isLast, isOtherFirst, isOtherLast, sameLast]
  refine ⟨?_, rfl⟩
  cases front with
  | nil =>
      exact sameFirst
  | cons report rest =>
      rfl

/-- What the inspection says about a log that has been cut. -/
theorem DamagedAt.inspectLog_kept
    {sorted early late segments : List SegmentFile}
    {file : SegmentFile}
    {log : LogReport}
    (isDamaged : DamagedAt sorted log early file late)
    (isKept : sortedFiles segments = keptFiles early file late.isEmpty) :
    ((inspectLog segments).damage = none ↔
        ¬ CorruptBehindGap
          (reportSegment (lastReport none early) file late.isEmpty)) ∧
      ((inspectLog segments).damage = none →
        (inspectLog segments).firstLsn = log.firstLsn ∧
          (inspectLog segments).lastLsn = log.lastLsn) := by
  have passed := isDamaged.passed
  have isReport :
      inspectLog segments =
        summarizeLog
          (analyzeLoop none (keptFiles early file late.isEmpty)) := by
    unfold inspectLog
    rw [isKept]
  have fits :
      ∀ report ∈ innerReports none early, Fits report := by
    rw [← analyzeLoop_passed passed]
    exact fits_analyzeLoop none early
  obtain ⟨isFirst, isLast⟩ := isDamaged.numbers
  rw [isReport, isFirst, isLast]
  unfold keptFiles CorruptBehindGap summarizeLog
  by_cases corrupt :
      (reportSegment (lastReport none early) file late.isEmpty).status =
        .corrupt
  · obtain ⟨isOk, sameFirst, sameLast, sameGap⟩ :=
      reportSegment_cutFile corrupt
    rw [if_pos corrupt,
      analyzeLoop_append none early (List.cons_ne_nil _ _)]
    simp only [analyzeLoop, List.isEmpty_nil, corrupt, true_and]
    have fitsSegment :=
      fits_reportSegment (lastReport none early) file late.isEmpty
    have fitsCut :=
      fits_reportSegment (lastReport none early)
        (cutFile file
          (reportSegment (lastReport none early) file
            late.isEmpty).validBytes) true
    generalize
      reportSegment (lastReport none early)
        (cutFile file
          (reportSegment (lastReport none early) file
            late.isEmpty).validBytes) true = cut at *
    generalize
      reportSegment (lastReport none early) file late.isEmpty = segment at *
    have header :
        cut.status ≠ .badHeader ∧ cut.status ≠ .incompleteHeader := by
      simp [isOk]
    by_cases gap : segment.gap = none
    · have isPassed :
          ∀ report ∈ innerReports none early ++ [cut], Passed report :=
        List.forall_mem_append.mpr
          ⟨passed, by
            simpa using ⟨header, by simp [isOk], sameGap.trans gap⟩⟩
      have sums := @summarizeLoop_clean _ [] isPassed (.inl rfl)
      rw [List.append_nil] at sums
      rw [sums, if_pos gap]
      have undamaged :=
        (addAll_numbers (List.forall_mem_append.mpr
          ⟨fits, by simpa using fitsCut⟩)
          (fun report member => (isPassed report member).header) {}).1
      refine ⟨iff_of_true undamaged (not_not.mpr gap), fun _ => ?_⟩
      exact addAll_last fits passed fitsSegment (by simp [corrupt]) fitsCut
        header sameFirst sameLast
    · obtain ⟨reason, isGap⟩ := Option.ne_none_iff_exists'.mp gap
      have damage :=
        @summarizeLoop_gap
          (LogSummary.addAll {} (innerReports none early)) cut reason header
          (sameGap.trans isGap) []
      rw [summarizeLoop_passed passed, damage]
      simp [gap]
  · rw [if_neg corrupt, analyzeLoop_passed passed]
    have sums := @summarizeLoop_clean _ [] passed (.inl rfl)
    rw [List.append_nil] at sums
    simp only [corrupt, false_and, not_false_eq_true, if_false, sums]
    have undamaged :=
      (addAll_numbers fits
        (fun report member => (passed report member).header) {}).1
    exact ⟨iff_of_true undamaged trivial, fun _ => ⟨trivial, trivial⟩⟩

/-- A segment that is moved away is in quarantine. -/
theorem mem_movedSegments
    {segments moved : List SegmentFile}
    (distinct : (segments.map SegmentFile.nameLsn).Nodup)
    {file : SegmentFile}
    (isFile : file ∈ segments)
    (isMoved : file ∈ moved) :
    Quarantined.segment file ∈
      movedSegments segments (moved.map SegmentFile.nameLsn) := by
  unfold movedSegments
  rw [List.mem_filterMap]
  refine ⟨file.nameLsn, List.mem_map_of_mem isMoved, ?_⟩
  rw [readSegment_of_mem distinct isFile]
  rfl

/-- What a truncation leaves: the segments in front of the damage, and in
quarantine everything else. -/
structure Truncated
    (state left : RepairState)
    (early : List SegmentFile)
    (file : SegmentFile)
    (late : List SegmentFile) : Prop where
  manifest : left.files.manifest = state.files.manifest
  snapshots : left.files.snapshots = state.files.snapshots
  kept :
    sortedFiles left.files.segments = keptFiles early file late.isEmpty
  moved :
    ∀ other ∈ late, Quarantined.segment other ∈ left.quarantine
  cut :
    (reportSegment (lastReport none early) file late.isEmpty).status =
        .corrupt →
      (reportSegment (lastReport none early) file
          late.isEmpty).validBytes < file.bytes.length →
        Quarantined.tail file.nameLsn
            (file.bytes.drop
              (reportSegment (lastReport none early) file
                late.isEmpty).validBytes) ∈
          left.quarantine
  refused :
    (reportSegment (lastReport none early) file late.isEmpty).status ≠
        .corrupt →
      Quarantined.segment file ∈ left.quarantine

/-- The names of the segments that a truncation moves away. -/
theorem map_file_drop
    (segments : List SegmentFile)
    (keep : Nat) :
    ((inspectLog segments).segments.drop keep).map SegmentReport.file =
      ((sortedFiles segments).drop keep).map SegmentFile.nameLsn := by
  rw [List.map_drop, List.map_drop]
  exact congrArg (List.drop keep) (map_file_analyzeLoop none _)

/-- The truncation of a damaged log. -/
theorem DamagedAt.truncated
    {state : RepairState}
    {early late : List SegmentFile}
    {file : SegmentFile}
    (isDamaged :
      DamagedAt (sortedFiles state.files.segments)
        (inspectLog state.files.segments) early file late)
    {keep : Nat}
    {cut : Option (Nat × Nat)}
    (point :
      SinterDb.truncationPoint (inspectLog state.files.segments).segments
        (inspectLog state.files.segments).damage = (keep, cut))
    (now : JsString) :
    ∃ left,
      state.run now
          (.truncateLog
            (((inspectLog state.files.segments).segments.drop keep).map
              SegmentReport.file) cut) =
        (left, none) ∧
        Truncated state left early file late := by
  have distinct := state.files.distinct_segments
  have isSegment :
      ∀ other ∈ sortedFiles state.files.segments,
        other ∈ state.files.segments :=
    fun other member => (List.mem_insertionSort _).mp member
  have moves :=
    @RepairState.moveSegments_sorted state
      ((sortedFiles state.files.segments).drop keep) (List.drop_sublist _ _)
  have left :
      sortedFiles
          (state.files.removeSegments
            (((sortedFiles state.files.segments).drop keep).map
              SegmentFile.nameLsn)).segments =
        (sortedFiles state.files.segments).take keep := by
    rw [DataFiles.segments_removeSegments]
    exact
      (sortedFiles_unlinkAll distinct (List.take_append_drop _ _).symm).2
  rw [isDamaged.truncationPoint distinct] at point
  rw [map_file_drop]
  unfold RepairState.run
  simp only [moves]
  have inQuarantine :
      ∀ other ∈ (sortedFiles state.files.segments).drop keep,
        Quarantined.segment other ∈
          state.quarantine ++
            movedSegments state.files.segments
              (((sortedFiles state.files.segments).drop keep).map
                SegmentFile.nameLsn) := by
    intro other member
    exact List.mem_append_right _
      (mem_movedSegments distinct
        (isSegment other (List.mem_of_mem_drop member)) member)
  have splits := isDamaged.splits
  by_cases corrupt :
      (reportSegment (lastReport none early) file late.isEmpty).status =
        .corrupt
  · rw [if_pos corrupt] at point
    obtain ⟨rfl, rfl⟩ := Prod.mk.inj point
    have takes :
        (early ++ file :: late).take (early.length + 1) =
          early ++ [file] := by
      simp [List.take_append]
    have drops :
        (early ++ file :: late).drop (early.length + 1) = late := by
      simp [List.drop_append]
    have names :
        ((early ++ [file]).map SegmentFile.nameLsn).Nodup := by
      have all := nodup_sortedFiles distinct
      rw [splits] at all
      rw [← takes]
      exact ((List.take_sublist _ _).map _).nodup all
    rw [splits, takes] at left
    rw [splits] at inQuarantine
    have isFile :
        file ∈
          (state.files.removeSegments
            (((early ++ file :: late).drop (early.length + 1)).map
              SegmentFile.nameLsn)).segments := by
      rw [← List.mem_insertionSort
        (fun first second : SegmentFile => first.nameLsn ≤ second.nameLsn)]
      change file ∈ sortedFiles _
      rw [left]
      simp
    rw [splits]
    refine ⟨_, RepairState.truncateSegment_eq isFile _, rfl, rfl, ?_, ?_, ?_,
      ?_⟩
    · rw [DataFiles.segments_changeSegment, sortedFiles_changeFile, left,
        changeFile_setLength names (corruptFile_of_status corrupt).inside,
        keptFiles, if_pos corrupt]
      rfl
    · intro other member
      have isMoved := inQuarantine other (by rw [drops]; exact member)
      simp only
      split_ifs
      · exact List.mem_append_left _ isMoved
      · exact isMoved
    · intro _ more
      simp [more]
    · intro intact
      exact absurd corrupt intact
  · rw [if_neg corrupt] at point
    obtain ⟨rfl, rfl⟩ := Prod.mk.inj point
    have takes : (early ++ file :: late).take early.length = early := by
      simp
    have drops :
        (early ++ file :: late).drop early.length = file :: late := by
      simp
    rw [splits, takes] at left
    rw [splits] at inQuarantine
    rw [splits]
    refine ⟨_, rfl, rfl, rfl, ?_, ?_, ?_, ?_⟩
    · rw [left, keptFiles, if_neg corrupt]
    · intro other member
      exact inQuarantine other
        (by rw [drops]; exact List.mem_cons_of_mem _ member)
    · intro isCorrupt
      exact absurd isCorrupt corrupt
    · intro _
      exact inQuarantine file (by rw [drops]; exact List.mem_cons_self)

end SinterDb
