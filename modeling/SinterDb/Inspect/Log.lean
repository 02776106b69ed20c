import SinterDb.Wal.WriteAheadLog

namespace SinterDb.Wal

/-!
# The inspection of the log

What `inspectLog` reports about the files of a log directory.  As everywhere, a
segment file is named by the number that its name spells, and files whose names
do not match are skipped by the inspection and by the log alike.
-/

/-- `SegmentStatus`. -/
inductive SegmentStatus where
  | ok
  | tornTail
  | corrupt
  | badHeader
  | incompleteHeader
  deriving Repr, DecidableEq

/-- `SegmentReport`. -/
structure SegmentReport where
  file : Nat
  bytes : Nat
  status : SegmentStatus
  problem : Option String := none
  firstLsn : Option Nat := none
  lastLsn : Option Int := none
  records : Nat := 0
  validBytes : Nat := 0
  gap : Option String := none
  deriving Repr, DecidableEq

/-- `LogDamage`. -/
structure LogDamage where
  file : Nat
  offset : Nat
  reason : String
  lastGoodLsn : Int
  deriving Repr, DecidableEq

/-- `LogReport`. -/
structure LogReport where
  segments : List SegmentReport
  firstLsn : Option Nat
  lastLsn : Int
  records : Nat
  damage : Option LogDamage
  deriving Repr, DecidableEq

/-- The status of a segment, from where its scan stopped. -/
def segmentStatus
    (stop : RecordScanResult)
    (isLast : Bool) : SegmentStatus × Option String :=
  match stop with
  | .torn reason => (if isLast then .tornTail else .corrupt, some reason)
  | .corrupt reason => (.corrupt, some reason)
  | _ => (.ok, none)

/-- `analyzeSegment`. -/
def analyzeSegment (file : SegmentFile) (isLast : Bool) : SegmentReport :=
  match decodeSegmentHeader file.bytes with
  | .failed reason =>
      { file := file.nameLsn
        bytes := file.bytes.length
        status :=
          if isIncompleteHeader file.bytes then
            .incompleteHeader
          else
            .badHeader
        problem := some reason }
  | .ok firstLsn =>
      if firstLsn ≠ file.nameLsn then
        { file := file.nameLsn
          bytes := file.bytes.length
          status := .badHeader
          problem :=
            some (s!"The segment header starts at {firstLsn} but the file " ++
              s!"name says {file.nameLsn}.") }
      else
        let scan := scanRecords file.bytes firstLsn
        let (status, problem) := segmentStatus scan.stop isLast
        { file := file.nameLsn
          bytes := file.bytes.length
          status := status
          problem := problem
          firstLsn := some firstLsn
          lastLsn := some (scan.expected - 1)
          records := scan.records.length
          validBytes := scan.offset }

/-- What is wrong when a segment does not start where it should. -/
def gapReason (expected : Int) (firstLsn : Nat) : String :=
  s!"Expected the segment to start at " ++
    s!"{expected} but it starts at {firstLsn}. " ++
    "A log segment is missing."

/-- The gap between a segment and the one before it, if there is one. -/
def findGap
    (previous : Option SegmentReport)
    (report : SegmentReport) : Option String :=
  match previous.bind SegmentReport.lastLsn, report.firstLsn with
  | some lastLsn, some firstLsn =>
      if (firstLsn : Int) ≠ lastLsn + 1 then
        some (gapReason (lastLsn + 1) firstLsn)
      else
        none
  | _, _ => none

/-- The report of a segment behind another one. -/
def reportSegment
    (previous : Option SegmentReport)
    (file : SegmentFile)
    (isLast : Bool) : SegmentReport :=
  let report := analyzeSegment file isLast
  { report with gap := findGap previous report }

/-- The loop of `inspectLog` over the sorted files. -/
def analyzeLoop :
    Option SegmentReport → List SegmentFile → List SegmentReport
  | _, [] => []
  | previous, file :: rest =>
      let report := reportSegment previous file rest.isEmpty
      report :: analyzeLoop (some report) rest

/-- What `summarizeLog` has counted so far. -/
structure LogSummary where
  firstLsn : Option Nat := none
  lastLsn : Int := 0
  records : Nat := 0
  damage : Option LogDamage := none
  deriving Repr, DecidableEq

/-- A segment is damaged at its start. -/
def LogSummary.damagedAt
    (summary : LogSummary)
    (segment : SegmentReport)
    (offset : Nat)
    (reason : Option String)
    (otherwise : String) : LogSummary :=
  { summary with
    damage :=
      some
        { file := segment.file
          offset := offset
          reason := reason.getD otherwise
          lastGoodLsn := summary.lastLsn } }

/-- The counts after a segment whose header is usable. -/
def LogSummary.add
    (summary : LogSummary)
    (segment : SegmentReport) : LogSummary :=
  { summary with
    firstLsn := summary.firstLsn <|> segment.firstLsn
    records := summary.records + segment.records
    lastLsn := segment.lastLsn.getD summary.lastLsn }

/-- The loop of `summarizeLog`. -/
def summarizeLoop : LogSummary → List SegmentReport → LogSummary
  | summary, [] => summary
  | summary, segment :: rest =>
      if segment.status = .incompleteHeader ∧ rest = [] then
        summary
      else if segment.status = .badHeader ∨
          segment.status = .incompleteHeader then
        summary.damagedAt segment 0 segment.problem
          "The segment header is unusable."
      else
        match segment.gap with
        | some gap => summary.damagedAt segment 0 (some gap) gap
        | none =>
            let counted := summary.add segment
            if segment.status = .corrupt then
              counted.damagedAt segment segment.validBytes segment.problem
                "A record is damaged."
            else
              summarizeLoop counted rest

/-- `summarizeLog`. -/
def summarizeLog (segments : List SegmentReport) : LogReport :=
  let summary := summarizeLoop {} segments
  { segments := segments
    firstLsn := summary.firstLsn
    lastLsn := summary.lastLsn
    records := summary.records
    damage := summary.damage }

/-- The files of a log in the order of their names. -/
def sortedFiles (files : List SegmentFile) : List SegmentFile :=
  files.insertionSort fun first second => first.nameLsn ≤ second.nameLsn

/-- `inspectLog`. -/
def inspectLog (files : List SegmentFile) : LogReport :=
  summarizeLog (analyzeLoop none (sortedFiles files))

/-- The records that the segments of a log hold. -/
def WriteAheadLog.heldCount (log : WriteAheadLog) : Nat :=
  (log.segments.map fun name =>
    match readSegment log.files name with
    | some bytes => (scanRecords bytes name).records.length
    | none => 0).sum

end SinterDb.Wal
