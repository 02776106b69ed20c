import SinterDb.Inspect.Log
import SinterDb.Wal.Scan

namespace SinterDb.Wal

/-!
# The inspection and the log agree

The inspection classifies every segment first and sums up afterwards; opening a
log stops at the first segment that it does not accept.  Both find the same
first damage, or the same records.
-/

/-- What opening a log asks of a segment, apart from its place. -/
structure AcceptedSegment (file : SegmentFile) : Prop where
  header : decodeSegmentHeader file.bytes = .ok file.nameLsn
  intact :
    ∀ reason,
      (scanRecords file.bytes file.nameLsn).stop ≠ .corrupt reason

/-- The number of records in a segment. -/
def recordsIn (file : SegmentFile) : Nat :=
  (scanRecords file.bytes file.nameLsn).records.length

/-- A segment starts behind the last record of another one. -/
def Follows (first second : SegmentFile) : Prop :=
  second.nameLsn = (scanRecords first.bytes first.nameLsn).expected

/-- What recovery has so far is what the summary has so far. -/
structure SameSoFar
    (recovered : RecoveredSegments)
    (previous : Option SegmentReport)
    (summary : LogSummary) : Prop where
  undamaged : summary.damage = none
  firstLsn : summary.firstLsn = recovered.segments.head?
  lastLsn : summary.lastLsn = recovered.lastLsn
  previous :
    previous.bind SegmentReport.lastLsn =
      if recovered.segments = [] then none else some recovered.lastLsn

/-- The report of a segment whose header cannot be read. -/
theorem reportSegment_failed
    {file : SegmentFile}
    {reason : String}
    (header : decodeSegmentHeader file.bytes = .failed reason)
    (previous : Option SegmentReport)
    (isLast : Bool) :
    (reportSegment previous file isLast).file = file.nameLsn ∧
      (reportSegment previous file isLast).status =
        (if isIncompleteHeader file.bytes then
          .incompleteHeader
        else
          .badHeader) ∧
      (reportSegment previous file isLast).problem = some reason := by
  unfold reportSegment analyzeSegment
  rw [header]
  exact ⟨rfl, rfl, rfl⟩

/-- The report of a segment whose header has another number. -/
theorem reportSegment_misnamed
    {file : SegmentFile}
    {firstLsn : Nat}
    (header : decodeSegmentHeader file.bytes = .ok firstLsn)
    (misnamed : firstLsn ≠ file.nameLsn)
    (previous : Option SegmentReport)
    (isLast : Bool) :
    (reportSegment previous file isLast).file = file.nameLsn ∧
      (reportSegment previous file isLast).status = .badHeader ∧
      (reportSegment previous file isLast).problem =
        some (s!"The segment header starts at {firstLsn} but the file " ++
          s!"name says {file.nameLsn}.") := by
  unfold reportSegment analyzeSegment
  simp [header, misnamed]

/-- The report of a segment with a usable header. -/
theorem reportSegment_ok
    {file : SegmentFile}
    (header : decodeSegmentHeader file.bytes = .ok file.nameLsn)
    {recovered : RecoveredSegments}
    {previous : Option SegmentReport}
    {summary : LogSummary}
    (same : SameSoFar recovered previous summary)
    (isLast : Bool) :
    reportSegment previous file isLast =
      { file := file.nameLsn
        bytes := file.bytes.length
        status :=
          (segmentStatus (scanRecords file.bytes file.nameLsn).stop isLast).1
        problem :=
          (segmentStatus (scanRecords file.bytes file.nameLsn).stop isLast).2
        firstLsn := some file.nameLsn
        lastLsn :=
          some ((scanRecords file.bytes file.nameLsn).expected - 1)
        records := recordsIn file
        validBytes := (scanRecords file.bytes file.nameLsn).offset
        gap :=
          if recovered.segments ≠ [] ∧
              (file.nameLsn : Int) ≠ recovered.lastLsn + 1 then
            some (gapReason (recovered.lastLsn + 1) file.nameLsn)
          else
            none } := by
  unfold reportSegment analyzeSegment findGap
  simp only [header, ne_eq, not_true, if_false, same.previous]
  by_cases none : recovered.segments = []
  · simp [none, recordsIn]
  · simp [none, recordsIn]

/-- What recovery and the summary say about the same files. -/
inductive SameVerdict
    (files : List SegmentFile)
    (recovered : RecoveredSegments)
    (summary : LogSummary) :
    Except LogError RecoveredSegments → LogSummary → Prop where
  | damaged
      {later : LogSummary}
      (damage : LogDamage)
      (lsn : Option Nat)
      (isDamage : later.damage = some damage) :
      SameVerdict files recovered summary
        (.error (.corruption damage.file damage.offset lsn damage.reason))
        later
  | accepted
      {final : RecoveredSegments}
      {later : LogSummary}
      (accepted removed : List SegmentFile)
      (undamaged : later.damage = none)
      (isFiles : files = accepted ++ removed)
      (areAccepted : ∀ file ∈ accepted, AcceptedSegment file)
      (chained : accepted.IsChain Follows)
      (goesOn :
        recovered.segments ≠ [] →
          ∀ file, accepted.head? = some file →
            (file.nameLsn : Int) = recovered.lastLsn + 1)
      (segments :
        final.segments =
          recovered.segments ++ accepted.map SegmentFile.nameLsn)
      (isRemoved :
        removed = [] ∧ final.removed = recovered.removed ∨
          ∃ file, removed = [file] ∧ final.removed = some file.nameLsn)
      (validEnd :
        final.validEnd =
          (accepted.getLast?.map fun last =>
            (scanRecords last.bytes last.nameLsn).offset).getD
            recovered.validEnd)
      (endsAt :
        final.lastLsn =
          (accepted.getLast?.map fun last =>
            ((scanRecords last.bytes last.nameLsn).expected : Int) - 1).getD
            recovered.lastLsn)
      (firstLsn : later.firstLsn = final.segments.head?)
      (lastLsn : later.lastLsn = final.lastLsn)
      (records :
        later.records = summary.records + (accepted.map recordsIn).sum) :
      SameVerdict files recovered summary (.ok final) later

/-- The next segment is not accepted for what is in front of its records. -/
theorem summarizeLoop_badHeader
    {summary : LogSummary}
    {segment : SegmentReport}
    {rest : List SegmentReport}
    {reason : String}
    (status :
      segment.status = .badHeader ∨
        segment.status = .incompleteHeader ∧ rest ≠ [])
    (problem : segment.problem = some reason) :
    (summarizeLoop summary (segment :: rest)).damage =
      some ⟨segment.file, 0, reason, summary.lastLsn⟩ := by
  unfold summarizeLoop
  rcases status with bad | ⟨incomplete, more⟩
  · rw [if_neg (by simp [bad]), if_pos (.inl bad)]
    simp [LogSummary.damagedAt, problem]
  · rw [if_neg (by simp [more]), if_pos (.inr incomplete)]
    simp [LogSummary.damagedAt, problem]

/-- A gap in front of a segment is damage. -/
theorem summarizeLoop_gap
    {summary : LogSummary}
    {segment : SegmentReport}
    {gap : String}
    (header : segment.status ≠ .badHeader ∧ segment.status ≠ .incompleteHeader)
    (isGap : segment.gap = some gap)
    (rest : List SegmentReport) :
    (summarizeLoop summary (segment :: rest)).damage =
      some ⟨segment.file, 0, gap, summary.lastLsn⟩ := by
  unfold summarizeLoop
  rw [if_neg (by simp [header.2]), if_neg (by simp [header.1, header.2]),
    isGap]
  rfl

/-- A segment without a gap is counted, and what follows is summed up if it is
not corrupt. -/
theorem summarizeLoop_counted
    {summary : LogSummary}
    {segment : SegmentReport}
    (header : segment.status ≠ .badHeader ∧ segment.status ≠ .incompleteHeader)
    (noGap : segment.gap = none)
    (rest : List SegmentReport) :
    summarizeLoop summary (segment :: rest) =
      if segment.status = .corrupt then
        (summary.add segment).damagedAt segment segment.validBytes
          segment.problem "A record is damaged."
      else
        summarizeLoop (summary.add segment) rest := by
  conv_lhs => unfold summarizeLoop
  rw [if_neg (by simp [header.2]), if_neg (by simp [header.1, header.2]),
    noGap]

/-- The status of a scanned segment is not one of a bad header. -/
theorem segmentStatus_header
    (stop : RecordScanResult)
    (isLast : Bool) :
    (segmentStatus stop isLast).1 ≠ .badHeader ∧
      (segmentStatus stop isLast).1 ≠ .incompleteHeader := by
  unfold segmentStatus
  cases stop <;> cases isLast <;> simp

/-- What recovery has after a segment, and the summary with it. -/
def RecoveredSegments.add
    (recovered : RecoveredSegments)
    (file : SegmentFile) : RecoveredSegments :=
  { recovered with
    segments := recovered.segments ++ [file.nameLsn]
    validEnd := (scanRecords file.bytes file.nameLsn).offset
    lastLsn := (scanRecords file.bytes file.nameLsn).expected - 1 }

/-- Recovery and the summary stay the same when they accept a segment. -/
theorem SameSoFar.add
    {recovered : RecoveredSegments}
    {previous : Option SegmentReport}
    {summary : LogSummary}
    (same : SameSoFar recovered previous summary)
    {file : SegmentFile}
    {report : SegmentReport}
    (firstLsn : report.firstLsn = some file.nameLsn)
    (lastLsn :
      report.lastLsn =
        some (((scanRecords file.bytes file.nameLsn).expected : Int) - 1)) :
    SameSoFar (recovered.add file) (some report) (summary.add report) := by
  refine ⟨same.undamaged, ?_, ?_, ?_⟩
  · simp only [LogSummary.add, RecoveredSegments.add, same.firstLsn, firstLsn]
    cases recovered.segments <;> rfl
  · simp [LogSummary.add, RecoveredSegments.add, lastLsn]
  · simp [RecoveredSegments.add, lastLsn]

/-- The verdict on the files behind an accepted one. -/
theorem SameVerdict.cons
    {recovered : RecoveredSegments}
    {summary : LogSummary}
    {file : SegmentFile}
    {rest : List SegmentFile}
    {report : SegmentReport}
    {result : Except LogError RecoveredSegments}
    {later : LogSummary}
    (verdict :
      SameVerdict rest (recovered.add file) (summary.add report) result later)
    (records : report.records = recordsIn file)
    (isAccepted : AcceptedSegment file)
    (follows :
      recovered.segments ≠ [] →
        (file.nameLsn : Int) = recovered.lastLsn + 1) :
    SameVerdict (file :: rest) recovered summary result later := by
  cases verdict with
  | damaged damage lsn isDamage =>
      exact .damaged damage lsn isDamage
  | accepted accepted removed undamaged isFiles areAccepted chained goesOn
      segments isRemoved validEnd endsAt firstLsn lastLsn counts =>
      refine .accepted (file :: accepted) removed undamaged
        (by rw [isFiles]; rfl)
        (List.forall_mem_cons.mpr ⟨isAccepted, areAccepted⟩) ?_ ?_ ?_
        isRemoved ?_ ?_ firstLsn lastLsn ?_
      · refine List.isChain_cons.mpr ⟨?_, chained⟩
        intro next isNext
        have starts := goesOn (by simp [RecoveredSegments.add]) next isNext
        simp only [RecoveredSegments.add] at starts
        unfold Follows
        omega
      · rintro some _ ⟨⟩
        exact follows some
      · rw [segments]
        simp [RecoveredSegments.add]
      · rw [validEnd, List.getLast?_cons]
        cases accepted.getLast? <;> rfl
      · rw [endsAt, List.getLast?_cons]
        cases accepted.getLast? <;> rfl
      · rw [counts]
        simp only [LogSummary.add, records, List.map_cons, List.sum_cons]
        omega

/-- Recovery and the inspection give the same verdict on a list of files. -/
theorem sameVerdict
    {recovered : RecoveredSegments}
    {previous : Option SegmentReport}
    {summary : LogSummary}
    (same : SameSoFar recovered previous summary)
    (files : List SegmentFile) :
    SameVerdict files recovered summary (recoverLoop files recovered)
      (summarizeLoop summary (analyzeLoop previous files)) := by
  induction files generalizing recovered previous summary with
  | nil =>
      exact .accepted [] [] same.undamaged rfl (List.forall_mem_nil _)
        .nil (by simp) (by simp) (.inl ⟨rfl, rfl⟩) rfl rfl same.firstLsn
        same.lastLsn rfl
  | cons file rest inductionHypothesis =>
      have noMore :
          ∀ report, analyzeLoop (some report) rest = [] ↔ rest = [] := by
        intro report
        cases rest <;> simp [analyzeLoop]
      unfold recoverLoop analyzeLoop
      cases header : decodeSegmentHeader file.bytes with
      | failed reason =>
          obtain ⟨isFile, status, problem⟩ :=
            reportSegment_failed header previous rest.isEmpty
          simp only
          by_cases tolerated :
              (rest.isEmpty && isIncompleteHeader file.bytes) = true
          · rw [if_pos tolerated]
            obtain ⟨isLast, incomplete⟩ := Bool.and_eq_true_iff.mp tolerated
            obtain rfl := List.isEmpty_iff.mp isLast
            rw [if_pos incomplete, List.isEmpty_nil] at status
            have skipped :
                summarizeLoop summary
                    (reportSegment previous file true ::
                      analyzeLoop (some (reportSegment previous file true))
                        []) =
                  summary := by
              simp [summarizeLoop, analyzeLoop, status]
            rw [List.isEmpty_nil, skipped]
            exact .accepted [] [file] same.undamaged rfl
              (List.forall_mem_nil _) .nil (by simp) (by simp)
              (.inr ⟨file, rfl, rfl⟩) rfl rfl same.firstLsn same.lastLsn rfl
          · rw [if_neg tolerated]
            refine .damaged ⟨file.nameLsn, 0, reason, summary.lastLsn⟩ none ?_
            rw [← isFile]
            refine summarizeLoop_badHeader ?_ problem
            by_cases incomplete : isIncompleteHeader file.bytes = true
            · refine .inr ⟨by rw [status, if_pos incomplete], ?_⟩
              rw [ne_eq, noMore]
              rintro rfl
              exact tolerated (by simp [incomplete])
            · exact .inl (by rw [status, if_neg incomplete])
      | ok firstLsn =>
          simp only
          by_cases misnamed : firstLsn ≠ file.nameLsn
          · obtain ⟨isFile, status, problem⟩ :=
              reportSegment_misnamed header misnamed previous rest.isEmpty
            rw [if_pos misnamed]
            refine .damaged ⟨file.nameLsn, 0, _, summary.lastLsn⟩ none ?_
            have damaged :=
              @summarizeLoop_badHeader summary _
                (analyzeLoop
                  (some (reportSegment previous file rest.isEmpty)) rest)
                _ (.inl status) problem
            rw [isFile] at damaged
            exact damaged
          · obtain rfl := not_not.mp misnamed
            rw [if_neg misnamed, reportSegment_ok header same]
            by_cases gap :
                recovered.segments ≠ [] ∧
                  (file.nameLsn : Int) ≠ recovered.lastLsn + 1
            · simp only [if_pos gap]
              exact .damaged
                ⟨file.nameLsn, 0,
                  gapReason (recovered.lastLsn + 1) file.nameLsn,
                  summary.lastLsn⟩
                none (summarizeLoop_gap (segmentStatus_header _ _) rfl _)
            · simp only [if_neg gap]
              rw [summarizeLoop_counted (segmentStatus_header _ _) rfl]
              have goesOn :
                  ∀ report : SegmentReport,
                    report.firstLsn = some file.nameLsn →
                    report.lastLsn =
                      some
                        (((scanRecords file.bytes file.nameLsn).expected :
                          Int) - 1) →
                    report.records = recordsIn file →
                    (∀ reason,
                      (scanRecords file.bytes file.nameLsn).stop ≠
                        .corrupt reason) →
                    SameVerdict (file :: rest) recovered summary
                      (recoverLoop rest (recovered.add file))
                      (summarizeLoop (summary.add report)
                        (analyzeLoop (some report) rest)) := by
                intro report firstLsn lastLsn records intact
                exact (inductionHypothesis (same.add firstLsn lastLsn)).cons
                  records ⟨header, intact⟩
                  (fun some => not_not.mp fun apart => gap ⟨some, apart⟩)
              cases stop : (scanRecords file.bytes file.nameLsn).stop with
              | corrupt reason =>
                  exact .damaged
                    ⟨file.nameLsn,
                      (scanRecords file.bytes file.nameLsn).offset, reason,
                      (scanRecords file.bytes file.nameLsn).expected - 1⟩ _
                    rfl
              | torn reason =>
                  by_cases isLast : rest.isEmpty = true
                  · simp only [segmentStatus, if_pos isLast, reduceCtorEq,
                      if_false]
                    exact goesOn _ rfl rfl rfl (by simp [stop])
                  · simp only [segmentStatus, if_neg isLast, if_true]
                    exact .damaged
                      ⟨file.nameLsn,
                        (scanRecords file.bytes file.nameLsn).offset, reason,
                        (scanRecords file.bytes file.nameLsn).expected - 1⟩ _
                      rfl
              | atEnd =>
                  exact goesOn _ rfl rfl rfl (by simp [stop])
              | record lsn type payload endOffset =>
                  exact goesOn _ rfl rfl rfl (by simp [stop])

end SinterDb.Wal
