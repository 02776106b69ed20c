import SinterDb.Inspect.LogAgreement
import SinterDb.Inspect.Repair

namespace SinterDb

open Wal

/-!
# The reports of the segments that are left

A report of a segment depends on the rest of the directory in two places only:
on whether the segment is the last one, and on the number that the segment in
front of it ends with.
-/

namespace Wal

/-- The numbers in a report are those of the file. -/
theorem analyzeSegment_numbers
    (file : SegmentFile)
    (isLast other : Bool) :
    (analyzeSegment file isLast).file = file.nameLsn ∧
      (analyzeSegment file isLast).firstLsn =
        (analyzeSegment file other).firstLsn ∧
      (analyzeSegment file isLast).lastLsn =
        (analyzeSegment file other).lastLsn := by
  unfold analyzeSegment
  cases decodeSegmentHeader file.bytes with
  | failed reason =>
      exact ⟨rfl, rfl, rfl⟩
  | ok firstLsn =>
      by_cases misnamed : firstLsn ≠ file.nameLsn
      · simp [misnamed]
      · simp [misnamed]

/-- The reports depend on the one in front only through its last number. -/
theorem analyzeLoop_congr
    {previous other : Option SegmentReport}
    (same :
      previous.bind SegmentReport.lastLsn =
        other.bind SegmentReport.lastLsn)
    (files : List SegmentFile) :
    analyzeLoop previous files = analyzeLoop other files := by
  cases files with
  | nil =>
      rfl
  | cons file rest =>
      have sameReport :
          reportSegment previous file rest.isEmpty =
            reportSegment other file rest.isEmpty := by
        unfold reportSegment findGap
        rw [same]
      rw [analyzeLoop, analyzeLoop, sameReport]

/-- Every file has a report under its name. -/
theorem map_file_analyzeLoop
    (previous : Option SegmentReport)
    (files : List SegmentFile) :
    (analyzeLoop previous files).map SegmentReport.file =
      files.map SegmentFile.nameLsn := by
  induction files generalizing previous with
  | nil =>
      rfl
  | cons file rest inductionHypothesis =>
      rw [analyzeLoop, List.map_cons, List.map_cons, inductionHypothesis]
      congr 1
      exact (analyzeSegment_numbers file rest.isEmpty true).1

/-- There are as many reports as files. -/
theorem length_analyzeLoop
    (previous : Option SegmentReport)
    (files : List SegmentFile) :
    (analyzeLoop previous files).length = files.length := by
  have names := congrArg List.length (map_file_analyzeLoop previous files)
  rwa [List.length_map, List.length_map] at names

/-- The report of the last of some files that are followed by others. -/
def lastReport
    (previous : Option SegmentReport) :
    List SegmentFile → Option SegmentReport
  | [] => previous
  | file :: rest => lastReport (some (reportSegment previous file false)) rest

/-- The reports of files that are followed by others. -/
def innerReports
    (previous : Option SegmentReport) :
    List SegmentFile → List SegmentReport
  | [] => []
  | file :: rest =>
      reportSegment previous file false ::
        innerReports (some (reportSegment previous file false)) rest

/-- The reports of files and of others behind them. -/
theorem analyzeLoop_append
    (previous : Option SegmentReport)
    (front : List SegmentFile)
    {back : List SegmentFile}
    (more : back ≠ []) :
    analyzeLoop previous (front ++ back) =
      innerReports previous front ++
        analyzeLoop (lastReport previous front) back := by
  induction front generalizing previous with
  | nil =>
      rfl
  | cons file rest inductionHypothesis =>
      have notLast : (rest ++ back).isEmpty = false := by
        simp [more]
      rw [List.cons_append, analyzeLoop, notLast, inductionHypothesis]
      rfl

/-- There are as many inner reports as files. -/
theorem length_innerReports
    (previous : Option SegmentReport)
    (files : List SegmentFile) :
    (innerReports previous files).length = files.length := by
  induction files generalizing previous with
  | nil =>
      rfl
  | cons file rest inductionHypothesis =>
      rw [innerReports, List.length_cons, List.length_cons,
        inductionHypothesis]

/-- The reports of the files that are left when the first ones have been
removed: only the gap in front of them is gone. -/
theorem analyzeLoop_back
    (front : List SegmentFile)
    (first : SegmentFile)
    (rest : List SegmentFile) :
    ∃ report later,
      (analyzeLoop none (front ++ first :: rest)).drop front.length =
          report :: later ∧
        analyzeLoop none (first :: rest) =
          { report with gap := none } :: later := by
  refine ⟨reportSegment (lastReport none front) first rest.isEmpty,
    analyzeLoop
      (some (reportSegment (lastReport none front) first rest.isEmpty)) rest,
    ?_, ?_⟩
  · rw [analyzeLoop_append none front (List.cons_ne_nil _ _),
      List.drop_left' (length_innerReports none front)]
    rfl
  · rw [analyzeLoop]
    congr 1
    refine analyzeLoop_congr ?_ rest
    rfl

/-- A report fits its file: the header can be used exactly if there are
numbers. -/
structure Fits (report : SegmentReport) : Prop where
  unusable :
    report.status = .badHeader ∨ report.status = .incompleteHeader →
      report.firstLsn = none ∧ report.lastLsn = none
  usable :
    report.status ≠ .badHeader → report.status ≠ .incompleteHeader →
      ∃ first last,
        report.firstLsn = some first ∧ report.lastLsn = some last

/-- The report of a file fits it. -/
theorem fits_reportSegment
    (previous : Option SegmentReport)
    (file : SegmentFile)
    (isLast : Bool) :
    Fits (reportSegment previous file isLast) := by
  unfold reportSegment analyzeSegment
  cases decodeSegmentHeader file.bytes with
  | failed reason =>
      by_cases incomplete : isIncompleteHeader file.bytes
      · exact ⟨by simp, by simp [incomplete]⟩
      · exact ⟨by simp, by simp [incomplete]⟩
  | ok firstLsn =>
      by_cases misnamed : firstLsn ≠ file.nameLsn
      · exact ⟨by simp [misnamed], by simp [misnamed]⟩
      · have header :=
          segmentStatus_header (scanRecords file.bytes firstLsn).stop isLast
        constructor
        · simp only [if_neg misnamed]
          rintro (bad | incomplete)
          · exact absurd bad header.1
          · exact absurd incomplete header.2
        · simp [misnamed]

/-- All reports of a log fit. -/
theorem fits_analyzeLoop
    (previous : Option SegmentReport)
    (files : List SegmentFile) :
    ∀ report ∈ analyzeLoop previous files, Fits report := by
  induction files generalizing previous with
  | nil =>
      simp [analyzeLoop]
  | cons file rest inductionHypothesis =>
      rw [analyzeLoop]
      exact List.forall_mem_cons.mpr
        ⟨fits_reportSegment _ _ _, inductionHypothesis _⟩

/-- A segment that the summary counts and goes past. -/
structure Passed (report : SegmentReport) : Prop where
  header :
    report.status ≠ .badHeader ∧ report.status ≠ .incompleteHeader
  intact : report.status ≠ .corrupt
  noGap : report.gap = none

/-- The summary of segments that it goes past. -/
def LogSummary.addAll
    (summary : LogSummary)
    (reports : List SegmentReport) : LogSummary :=
  reports.foldl LogSummary.add summary

/-- The summary goes past segments that are fine. -/
theorem summarizeLoop_passed
    {front : List SegmentReport}
    (passed : ∀ report ∈ front, Passed report)
    (summary : LogSummary)
    (back : List SegmentReport) :
    summarizeLoop summary (front ++ back) =
      summarizeLoop (summary.addAll front) back := by
  induction front generalizing summary with
  | nil =>
      rfl
  | cons report rest inductionHypothesis =>
      obtain ⟨first, others⟩ := List.forall_mem_cons.mp passed
      rw [List.cons_append, summarizeLoop_counted first.header first.noGap,
        if_neg first.intact, inductionHypothesis others]
      rfl

/-- What the summary finds in some reports: nothing, apart from an incomplete
last segment; a segment that it does not count; or one with a damaged
record. -/
inductive Found (reports : List SegmentReport) : LogSummary → Prop where
  | clean
      (front tail : List SegmentReport)
      (splits : reports = front ++ tail)
      (passed : ∀ report ∈ front, Passed report)
      (isTail :
        tail = [] ∨
          ∃ last, tail = [last] ∧ last.status = .incompleteHeader) :
      Found reports (LogSummary.addAll {} front)
  | refused
      (front back : List SegmentReport)
      (segment : SegmentReport)
      (reason : String)
      (splits : reports = front ++ segment :: back)
      (passed : ∀ report ∈ front, Passed report)
      (isRefused :
        segment.status = .badHeader ∨
          segment.status = .incompleteHeader ∧ back ≠ [] ∨
          segment.gap ≠ none) :
      Found reports
        ((LogSummary.addAll {} front).damagedAt segment 0 none reason)
  | corrupt
      (front back : List SegmentReport)
      (segment : SegmentReport)
      (reason : String)
      (splits : reports = front ++ segment :: back)
      (passed : ∀ report ∈ front, Passed report)
      (isCorrupt : segment.status = .corrupt)
      (noGap : segment.gap = none) :
      Found reports
        ((LogSummary.addAll {} (front ++ [segment])).damagedAt segment
          segment.validBytes none reason)

/-- The summary goes on with the next segment. -/
theorem addAll_append
    (summary : LogSummary)
    (front : List SegmentReport)
    (segment : SegmentReport) :
    summary.addAll (front ++ [segment]) = (summary.addAll front).add segment :=
  List.foldl_append

/-- What the summary finds behind segments that are fine. -/
theorem found_behind
    {front : List SegmentReport}
    (passed : ∀ report ∈ front, Passed report)
    (back : List SegmentReport) :
    Found (front ++ back)
      (summarizeLoop (LogSummary.addAll {} front) back) := by
  induction back generalizing front with
  | nil =>
      exact .clean front [] rfl passed (.inl rfl)
  | cons segment rest inductionHypothesis =>
      unfold summarizeLoop
      by_cases ends : segment.status = .incompleteHeader ∧ rest = []
      · rw [if_pos ends]
        exact .clean front (segment :: rest) rfl passed
          (.inr ⟨segment, by rw [ends.2], ends.1⟩)
      · rw [if_neg ends]
        by_cases header :
            segment.status = .badHeader ∨ segment.status = .incompleteHeader
        · rw [if_pos header]
          refine .refused front rest segment
            (segment.problem.getD "The segment header is unusable.") rfl
            passed ?_
          rcases header with bad | incomplete
          · exact .inl bad
          · exact .inr (.inl ⟨incomplete, fun last => ends ⟨incomplete, last⟩⟩)
        · rw [if_neg header]
          cases gap : segment.gap with
          | some reason =>
              exact .refused front rest segment reason rfl passed
                (.inr (.inr (by simp [gap])))
          | none =>
              by_cases corrupt : segment.status = .corrupt
              · simp only [if_pos corrupt]
                rw [← addAll_append]
                exact .corrupt front rest segment
                  (segment.problem.getD "A record is damaged.") rfl passed
                  corrupt gap
              · simp only [if_neg corrupt]
                have passedNext :
                    ∀ report ∈ front ++ [segment], Passed report := by
                  intro report member
                  rcases List.mem_append.mp member with early | isSegment
                  · exact passed report early
                  · obtain rfl := List.mem_singleton.mp isSegment
                    exact ⟨not_or.mp header, corrupt, gap⟩
                have later := inductionHypothesis passedNext
                rw [addAll_append, List.append_assoc] at later
                exact later

/-- What the summary finds in all reports. -/
theorem found (reports : List SegmentReport) :
    Found reports (summarizeLoop {} reports) :=
  found_behind (List.forall_mem_nil _) reports

/-- The numbers of a summary of segments that are fine. -/
theorem addAll_numbers
    {reports : List SegmentReport}
    (fits : ∀ report ∈ reports, Fits report)
    (passed :
      ∀ report ∈ reports,
        report.status ≠ .badHeader ∧ report.status ≠ .incompleteHeader)
    (summary : LogSummary) :
    (summary.addAll reports).damage = summary.damage ∧
      (summary.addAll reports).firstLsn =
        (summary.firstLsn <|>
          reports.head?.bind SegmentReport.firstLsn) ∧
      (summary.addAll reports).lastLsn =
        (reports.getLast?.bind SegmentReport.lastLsn).getD
          summary.lastLsn := by
  induction reports generalizing summary with
  | nil =>
      exact ⟨rfl, by simp [LogSummary.addAll], rfl⟩
  | cons report rest inductionHypothesis =>
      obtain ⟨fitsFirst, fitsRest⟩ := List.forall_mem_cons.mp fits
      obtain ⟨usable, usableRest⟩ := List.forall_mem_cons.mp passed
      obtain ⟨first, last, isFirst, isLast⟩ :=
        fitsFirst.usable usable.1 usable.2
      obtain ⟨damage, firstLsn, lastLsn⟩ :=
        inductionHypothesis fitsRest usableRest (summary.add report)
      refine ⟨damage, ?_, ?_⟩
      · refine firstLsn.trans ?_
        simp only [LogSummary.add, isFirst, List.head?_cons, Option.bind_some]
        cases summary.firstLsn <;> rfl
      · refine lastLsn.trans ?_
        rw [List.getLast?_cons]
        cases isLater : rest.getLast? with
        | none =>
            simp [LogSummary.add, isLast]
        | some later =>
            obtain ⟨_, number, _, isNumber⟩ :=
              (fitsRest later (List.mem_of_getLast? isLater)).usable
                (usableRest later (List.mem_of_getLast? isLater)).1
                (usableRest later (List.mem_of_getLast? isLater)).2
            simp [isNumber]

end Wal

/-- Reports without a bad segment and without a gap. -/
def CleanReports : List SegmentReport → Prop
  | [] => True
  | segment :: rest =>
      ¬ isBadSegment segment rest.isEmpty ∧ segment.gap = none ∧
        CleanReports rest

/-- The same, but for a gap in front of the first segment. -/
def CleanBehindGap : List SegmentReport → Prop
  | [] => True
  | segment :: rest =>
      ¬ isBadSegment segment rest.isEmpty ∧ CleanReports rest

/-- Clean reports are clean behind a gap, too. -/
theorem CleanReports.behindGap
    {reports : List SegmentReport}
    (clean : CleanReports reports) :
    CleanBehindGap reports := by
  cases reports with
  | nil =>
      trivial
  | cons segment rest =>
      exact ⟨clean.1, clean.2.2⟩

/-- The loop never goes back, and stops inside the list. -/
theorem firstCleanLoop_bounds
    {index clean : Nat}
    (small : clean ≤ index)
    (segments : List SegmentReport) :
    clean ≤ firstCleanLoop index clean segments ∧
      firstCleanLoop index clean segments ≤ index + segments.length := by
  induction segments generalizing index clean with
  | nil =>
      exact ⟨le_rfl, small⟩
  | cons segment rest inductionHypothesis =>
      have next :=
        @inductionHypothesis (index + 1)
          (if segment.gap.isSome then
            max (if isBadSegment segment rest.isEmpty then index + 1 else clean)
              index
          else if isBadSegment segment rest.isEmpty then
            index + 1
          else
            clean)
          (by split_ifs <;> omega)
      rw [firstCleanLoop, List.length_cons]
      refine ⟨le_trans ?_ next.1, next.2.trans (by omega)⟩
      split_ifs <;> omega

/-- Everything behind the index that the loop finds is clean. -/
theorem firstCleanLoop_clean
    {index clean : Nat}
    (small : clean ≤ index)
    (segments : List SegmentReport) :
    CleanBehindGap
        (segments.drop (firstCleanLoop index clean segments - index)) ∧
      (firstCleanLoop index clean segments < index →
        CleanReports segments) := by
  induction segments generalizing index clean with
  | nil =>
      simp [CleanBehindGap, CleanReports]
  | cons segment rest inductionHypothesis =>
      rw [firstCleanLoop]
      generalize isNext :
          (if segment.gap.isSome then
            max (if isBadSegment segment rest.isEmpty then index + 1 else clean)
              index
          else if isBadSegment segment rest.isEmpty then
            index + 1
          else
            clean) = next
      have smallNext : next ≤ index + 1 := by
        rw [← isNext]
        split_ifs <;> omega
      obtain ⟨behind, before⟩ := inductionHypothesis smallNext
      have least := (firstCleanLoop_bounds smallNext rest).1
      generalize firstCleanLoop (index + 1) next rest = result at *
      by_cases later : index < result
      · refine ⟨?_, fun earlier => absurd earlier (by omega)⟩
        rw [show result - index = result - (index + 1) + 1 by omega,
          List.drop_succ_cons]
        exact behind
      · have cleanRest := before (by omega)
        have notBad : ¬ isBadSegment segment rest.isEmpty := by
          intro bad
          rw [if_pos bad] at isNext
          split_ifs at isNext <;> omega
        rw [Nat.sub_eq_zero_of_le (by omega), List.drop_zero]
        refine ⟨⟨notBad, cleanRest⟩, fun earlier => ⟨notBad, ?_, cleanRest⟩⟩
        rw [← Option.not_isSome_iff_eq_none]
        intro gap
        rw [if_pos gap] at isNext
        omega

/-- Everything behind the first clean index is clean, but for a gap. -/
theorem cleanBehindGap_firstCleanIndex (segments : List SegmentReport) :
    CleanBehindGap (segments.drop (firstCleanIndex segments)) :=
  (@firstCleanLoop_clean 0 0 le_rfl segments).1

/-- Clean reports are segments that are fine, and maybe an incomplete last
one. -/
theorem CleanReports.splits
    {reports : List SegmentReport}
    (clean : CleanReports reports) :
    ∃ front tail,
      reports = front ++ tail ∧
        (∀ report ∈ front, Passed report) ∧
        (tail = [] ∨
          ∃ last, tail = [last] ∧ last.status = .incompleteHeader) := by
  induction reports with
  | nil =>
      exact ⟨[], [], rfl, List.forall_mem_nil _, .inl rfl⟩
  | cons segment rest inductionHypothesis =>
      obtain ⟨notBad, noGap, cleanRest⟩ := clean
      unfold isBadSegment at notBad
      simp only [not_or, not_and, Bool.not_eq_false] at notBad
      obtain ⟨intact, header, last⟩ := notBad
      by_cases incomplete : segment.status = .incompleteHeader
      · obtain rfl := List.isEmpty_iff.mp (last incomplete)
        exact ⟨[], [segment], rfl, List.forall_mem_nil _,
          .inr ⟨segment, rfl, incomplete⟩⟩
      · obtain ⟨front, tail, rfl, passed, isTail⟩ :=
          inductionHypothesis cleanRest
        exact ⟨segment :: front, tail, rfl,
          List.forall_mem_cons.mpr
            ⟨⟨⟨header, incomplete⟩, intact, noGap⟩, passed⟩, isTail⟩

/-- The summary of segments that are fine, and maybe an incomplete last
one. -/
theorem summarizeLoop_clean
    {front tail : List SegmentReport}
    (passed : ∀ report ∈ front, Passed report)
    (isTail :
      tail = [] ∨
        ∃ last, tail = [last] ∧ last.status = .incompleteHeader) :
    summarizeLoop {} (front ++ tail) = LogSummary.addAll {} front := by
  rw [summarizeLoop_passed passed]
  rcases isTail with rfl | ⟨last, rfl, incomplete⟩
  · rfl
  · rw [summarizeLoop, if_pos ⟨incomplete, rfl⟩]

end SinterDb
