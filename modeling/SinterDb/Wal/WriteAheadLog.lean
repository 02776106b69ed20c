import SinterDb.Wal.Format

namespace SinterDb.Wal

/-!
# The write-ahead log

The state of an open log together with the files of its directory.  A segment
file is named by twenty decimal digits, so a name is the number it spells.
What the operating system will do with the next writes and flushes is part of
the state: a list of outcomes, of which an empty list means that everything
succeeds.  A method that throws returns the state it leaves behind next to the
error.
-/

/-- `WriteConcern`. -/
inductive WriteConcern where
  | memory
  | journaled
  | flushed
  deriving Repr, DecidableEq

/-- `DEFAULT_SEGMENT_SIZE_BYTES`. -/
def defaultSegmentSizeBytes : Nat := 64 * 1024 * 1024

/-- `MEMORY_FLUSH_BYTES`. -/
def memoryFlushBytes : Nat := 64 * 1024

/-- `WriteAheadLogOptions`, without the directory. -/
structure WriteAheadLogOptions where
  writeConcern : Option WriteConcern := none
  groupCommit : Option Bool := none
  segmentSizeBytes : Option Nat := none
  deriving Repr, DecidableEq

/-- `WalRecord`. -/
structure WalRecord where
  lsn : Nat
  type : Nat
  payload : Bytes
  deriving Repr, DecidableEq

/-- A segment file: the number its name spells and its contents. -/
structure SegmentFile where
  nameLsn : Nat
  bytes : Bytes
  deriving Repr, DecidableEq

/-- What the operating system does with one write or flush. -/
inductive IoOutcome where
  | done
  | diskFull (written : Nat)
  | failed (written : Nat)
  deriving Repr, DecidableEq

/-- The errors that the log throws. -/
inductive LogError where
  | type (message : String)
  | range (error : RangeError)
  | diskFull
  | io
  | closed
  | corruption (file offset : Nat) (lsn : Option Nat) (reason : String)
  deriving Repr, DecidableEq

/-- An open log and the directory it writes to. -/
structure WriteAheadLog where
  files : List SegmentFile
  outcomes : List IoOutcome
  mode : WriteConcern
  groupCommit : Bool
  segmentSizeBytes : Nat
  segments : List Nat
  position : Nat
  nextLsn : Nat
  pending : List Bytes
  pendingBytes : Nat
  unsynced : Bool
  broken : Bool
  closed : Bool
  deriving Repr, DecidableEq

/-- Write at a position of a file; a gap reads as zero bytes. -/
def writeAt (contents : Bytes) (position : Nat) (data : Bytes) : Bytes :=
  contents.take position ++
    List.replicate (position - contents.length) 0 ++
    data ++ contents.drop (position + data.length)

/-- The contents of a file, when it exists. -/
def readSegment (files : List SegmentFile) (name : Nat) : Option Bytes :=
  (files.find? fun file => file.nameLsn == name).map SegmentFile.bytes

/-- Change the contents of one file. -/
def changeFile
    (files : List SegmentFile)
    (name : Nat)
    (change : Bytes → Bytes) : List SegmentFile :=
  files.map fun file =>
    if file.nameLsn = name then
      { file with bytes := change file.bytes }
    else
      file

/-- `unlinkSync`. -/
def unlink (files : List SegmentFile) (name : Nat) : List SegmentFile :=
  files.filter fun file => file.nameLsn != name

namespace WriteAheadLog

/-- The number that names the active segment: `activePath`. -/
def activePath (log : WriteAheadLog) : Nat :=
  log.segments.getLastD 0

/-- `lastLsn`. -/
def lastLsn (log : WriteAheadLog) : Int :=
  log.nextLsn - 1

/-- `firstLsn`. -/
def firstLsn (log : WriteAheadLog) : Nat :=
  log.segments.headD 0

/-- The next outcome, and the log that waits for the one after it. -/
def takeOutcome (log : WriteAheadLog) : IoOutcome × WriteAheadLog :=
  match log.outcomes with
  | [] => (.done, log)
  | outcome :: rest => (outcome, { log with outcomes := rest })

/-- `assertOpen`. -/
def assertOpen (log : WriteAheadLog) : Except LogError Unit :=
  if log.closed then .error .closed else .ok ()

/-- `assertWritable`. -/
def assertWritable (log : WriteAheadLog) : Except LogError Unit :=
  if log.closed then
    .error .closed
  else if log.broken then
    .error .io
  else
    .ok ()

/--
`writeFully` into the named file.  Partial writes are retried by the loop of
the source, so either all bytes arrive or a failing write has left a part.
-/
def writeFully
    (log : WriteAheadLog)
    (name : Nat)
    (bytes : Bytes)
    (position : Nat) : WriteAheadLog × IoOutcome :=
  let (outcome, log) := log.takeOutcome
  let arrived :=
    match outcome with
    | .done => bytes
    | .diskFull written => bytes.take written
    | .failed written => bytes.take written
  ({ log with
      files :=
        changeFile log.files name
          fun contents => writeAt contents position arrived },
    outcome)

/--
`abandonWrite`: after a full disk the partly written bytes are cut off and the
log stays usable; any other failure breaks it.
-/
def abandonWrite
    (log : WriteAheadLog)
    (outcome : IoOutcome)
    (goodEnd : Nat) : WriteAheadLog × LogError :=
  match outcome with
  | .diskFull _ =>
      ({ log with
          files :=
            changeFile log.files log.activePath
              fun contents => contents.take goodEnd },
        .diskFull)
  | _ => ({ log with broken := true }, .io)

/-- `fsyncSync` on the active segment; a failure breaks the log. -/
def fsyncActive (log : WriteAheadLog) : WriteAheadLog × Except LogError Unit :=
  let (outcome, log) := log.takeOutcome
  match outcome with
  | .done => (log, .ok ())
  | _ => ({ log with broken := true }, .error .io)

/-- `flush`. -/
def flush (log : WriteAheadLog) : WriteAheadLog × Except LogError Unit :=
  match log.assertWritable with
  | .error error => (log, .error error)
  | .ok () =>
      if log.pendingBytes = 0 then
        (log, .ok ())
      else
        let start := log.position - log.pendingBytes
        let (log, outcome) :=
          log.writeFully log.activePath log.pending.flatten start
        match outcome with
        | .done => ({ log with pending := [], pendingBytes := 0 }, .ok ())
        | failure =>
            let (log, error) := log.abandonWrite failure start
            (log, .error error)

/-- `commit`. -/
def commit (log : WriteAheadLog) : WriteAheadLog × Except LogError Unit :=
  if !log.unsynced || log.closed then
    (log, .ok ())
  else
    match log.assertWritable with
    | .error error => (log, .error error)
    | .ok () =>
        match log.fsyncActive with
        | (log, .ok ()) => ({ log with unsynced := false }, .ok ())
        | (log, .error error) => (log, .error error)

/-- `sync`. -/
def sync (log : WriteAheadLog) : WriteAheadLog × Except LogError Unit :=
  match log.flush with
  | (log, .error error) => (log, .error error)
  | (log, .ok ()) =>
      match log.fsyncActive with
      | (log, .ok ()) => ({ log with unsynced := false }, .ok ())
      | (log, .error error) => (log, .error error)

/--
`createSegment`: the file must not exist yet, and is removed again when its
header cannot be written or flushed.
-/
def createSegment
    (log : WriteAheadLog)
    (firstLsn : Nat)
    (durable : Bool) : WriteAheadLog × Except LogError Unit :=
  if (readSegment log.files firstLsn).isSome then
    (log, .error .io)
  else
    let opened : WriteAheadLog :=
      { log with files := log.files ++ [⟨firstLsn, []⟩] }
    let (log, outcome) :=
      opened.writeFully firstLsn (encodeSegmentHeader firstLsn) 0
    let abandoned := { log with files := unlink log.files firstLsn }
    match outcome with
    | .diskFull _ => (abandoned, .error .diskFull)
    | .failed _ => (abandoned, .error .io)
    | .done =>
        if durable then
          let (outcome, log) := log.takeOutcome
          match outcome with
          | .done => (log, .ok ())
          | .diskFull _ =>
              ({ log with files := unlink log.files firstLsn },
                .error .diskFull)
          | .failed _ =>
              ({ log with files := unlink log.files firstLsn }, .error .io)
        else
          (log, .ok ())

/-- The second half of `rotate`: create the next segment and switch to it. -/
def switchSegment
    (log : WriteAheadLog)
    (durable : Bool) : WriteAheadLog × Except LogError Unit :=
  match log.createSegment log.nextLsn durable with
  | (log, .error error) => (log, .error error)
  | (log, .ok ()) =>
      ({ log with
          segments := log.segments ++ [log.nextLsn]
          position := segmentHeaderSize },
        .ok ())

/-- `rotate`. -/
def rotate (log : WriteAheadLog) : WriteAheadLog × Except LogError Unit :=
  let durable := log.mode == .flushed
  match log.flush with
  | (log, .error error) => (log, .error error)
  | (log, .ok ()) =>
      if durable then
        match log.fsyncActive with
        | (log, .error error) => (log, .error error)
        | (log, .ok ()) =>
            ({ log with unsynced := false } : WriteAheadLog).switchSegment
              durable
      else
        log.switchSegment durable

/-- The part of `append` that queues a record under the memory concern. -/
def queueRecord
    (log : WriteAheadLog)
    (lsn : Nat)
    (record : Bytes) : WriteAheadLog × Except LogError Nat :=
  let queued :=
    { log with
      pending := log.pending ++ [record]
      pendingBytes := log.pendingBytes + record.length
      position := log.position + record.length
      nextLsn := lsn + 1 }
  if memoryFlushBytes ≤ queued.pendingBytes then
    match queued.flush with
    | (flushed, .ok ()) => (flushed, .ok lsn)
    | (flushed, .error error) =>
        if flushed.broken then
          (flushed, .error error)
        else
          -- The disk is full but the log is still usable: the record that
          -- the caller will not apply must not stay queued.
          ({ flushed with
              pending := flushed.pending.dropLast
              pendingBytes := flushed.pendingBytes - record.length
              position := flushed.position - record.length
              nextLsn := lsn },
            .error error)
  else
    (queued, .ok lsn)

/-- The part of `append` that writes a record to the active segment. -/
def writeRecord
    (log : WriteAheadLog)
    (lsn : Nat)
    (record : Bytes) : WriteAheadLog × Except LogError Nat :=
  let (log, outcome) := log.writeFully log.activePath record log.position
  match outcome with
  | .done =>
      let (log, flushed) :=
        if log.mode = .flushed then
          if log.groupCommit then
            ({ log with unsynced := true }, .ok ())
          else
            log.fsyncActive
        else
          (log, .ok ())
      match flushed with
      | .error error => (log, .error error)
      | .ok () =>
          ({ log with
              position := log.position + record.length
              nextLsn := lsn + 1 },
            .ok lsn)
  | failure =>
      let (log, error) := log.abandonWrite failure log.position
      (log, .error error)

/-- `append`. -/
def append
    (log : WriteAheadLog)
    (type : Int)
    (payload : Bytes) : WriteAheadLog × Except LogError Nat :=
  match log.assertWritable with
  | .error error => (log, .error error)
  | .ok () =>
      let lsn := log.nextLsn
      match encodeRecord lsn type payload with
      | .error error => (log, .error (.range error))
      | .ok record =>
          let (log, rotated) :=
            if segmentHeaderSize < log.position ∧
                log.segmentSizeBytes < log.position + record.length then
              log.rotate
            else
              (log, .ok ())
          match rotated with
          | .error error => (log, .error error)
          | .ok () =>
              if log.mode = .memory then
                log.queueRecord lsn record
              else
                log.writeRecord lsn record

end WriteAheadLog

/-- Where the scan of one segment stops, and the records it passed. -/
structure SegmentScan where
  records : List WalRecord
  offset : Nat
  expected : Nat
  stop : RecordScanResult
  deriving Repr, DecidableEq

/--
The scanning loop of `recoverSegments` and `records`.  Each round consumes at
least a record header, so the length of the file bounds the rounds.
-/
def scanSegment :
    Nat → Bytes → Nat → Nat → SegmentScan
  | 0, _, offset, expected => ⟨[], offset, expected, .atEnd⟩
  | rounds + 1, bytes, offset, expected =>
      match scanRecord bytes offset expected with
      | .record lsn type payload endOffset =>
          let later := scanSegment rounds bytes endOffset (lsn + 1)
          { later with records := ⟨lsn, type, payload⟩ :: later.records }
      | stop => ⟨[], offset, expected, stop⟩

/-- Scan a whole segment file after its header. -/
def scanRecords (bytes : Bytes) (firstLsn : Nat) : SegmentScan :=
  scanSegment bytes.length bytes segmentHeaderSize firstLsn

/-- `isIncompleteHeader`. -/
def isIncompleteHeader (bytes : Bytes) : Bool :=
  if bytes.length < segmentHeaderSize then
    true
  else
    isZeroFilled bytes

/-- `RecoveredSegments`, with the segment that recovery removed, if any. -/
structure RecoveredSegments where
  segments : List Nat
  validEnd : Nat
  lastLsn : Int
  removed : Option Nat
  deriving Repr, DecidableEq

/-- The loop of `recoverSegments` over the sorted names. -/
def recoverLoop :
    List SegmentFile → RecoveredSegments → Except LogError RecoveredSegments
  | [], recovered => .ok recovered
  | file :: rest, recovered =>
      match decodeSegmentHeader file.bytes with
      | .failed reason =>
          if rest.isEmpty && isIncompleteHeader file.bytes then
            .ok { recovered with removed := some file.nameLsn }
          else
            .error (.corruption file.nameLsn 0 none reason)
      | .ok firstLsn =>
          if firstLsn ≠ file.nameLsn then
            .error (.corruption file.nameLsn 0 none
              (s!"The segment header starts at {firstLsn} but the file " ++
                s!"name says {file.nameLsn}."))
          else if recovered.segments ≠ [] ∧
              (firstLsn : Int) ≠ recovered.lastLsn + 1 then
            .error (.corruption file.nameLsn 0 none
              (s!"Expected the segment to start at " ++
                s!"{recovered.lastLsn + 1} but it starts at {firstLsn}. " ++
                "A log segment is missing."))
          else
            let scan := scanRecords file.bytes firstLsn
            let accepted :=
              recoverLoop rest
                { recovered with
                  segments := recovered.segments ++ [firstLsn]
                  validEnd := scan.offset
                  lastLsn := scan.expected - 1 }
            match scan.stop with
            | .corrupt reason =>
                .error (.corruption file.nameLsn scan.offset
                  (some scan.expected) reason)
            | .torn reason =>
                if rest.isEmpty then
                  accepted
                else
                  .error (.corruption file.nameLsn scan.offset
                    (some scan.expected) reason)
            | _ => accepted

/-- `recoverSegments`. -/
def recoverSegments
    (files : List SegmentFile) : Except LogError RecoveredSegments :=
  recoverLoop
    (files.insertionSort fun first second => first.nameLsn ≤ second.nameLsn)
    { segments := []
      validEnd := segmentHeaderSize
      lastLsn := 0
      removed := none }

namespace WriteAheadLog

/-- The log that the constructor builds, over the given files. -/
def opened
    (files : List SegmentFile)
    (outcomes : List IoOutcome)
    (mode : WriteConcern)
    (groupCommit : Bool)
    (segmentSizeBytes : Nat)
    (segments : List Nat)
    (position nextLsn : Nat) : WriteAheadLog where
  files := files
  outcomes := outcomes
  mode := mode
  groupCommit := groupCommit
  segmentSizeBytes := segmentSizeBytes
  segments := segments
  position := position
  nextLsn := nextLsn
  pending := []
  pendingBytes := 0
  unsynced := false
  broken := false
  closed := false

/--
`WriteAheadLog.open` on the files of a directory; named `openLog` because the
source's name is a keyword.
-/
def openLog
    (options : WriteAheadLogOptions)
    (files : List SegmentFile)
    (outcomes : List IoOutcome) : Except LogError WriteAheadLog :=
  let mode := options.writeConcern.getD .flushed
  let groupCommit := options.groupCommit.getD false
  let segmentSizeBytes :=
    options.segmentSizeBytes.getD defaultSegmentSizeBytes
  if groupCommit && mode != .flushed then
    .error (.type
      "Group commit only applies to the \"flushed\" write concern.")
  else if 2 ^ 53 ≤ segmentSizeBytes ∨
      segmentSizeBytes < segmentHeaderSize + 64 then
    .error (.type "Segment size is too small.")
  else
    match recoverSegments files with
    | .error error => .error error
    | .ok recovered =>
        let files :=
          match recovered.removed with
          | none => files
          | some name => unlink files name
        match recovered.segments.getLast? with
        | none =>
            match
              (opened files outcomes mode groupCommit segmentSizeBytes [1]
                segmentHeaderSize 1).createSegment 1 (mode == .flushed) with
            | (log, .ok ()) => .ok log
            | (_, .error error) => .error error
        | some last =>
            .ok
              (opened
                (changeFile files last
                  fun contents => contents.take recovered.validEnd)
                outcomes mode groupCommit segmentSizeBytes recovered.segments
                recovered.validEnd (recovered.lastLsn + 1).toNat)

/-- The loop of `records` over the segments. -/
def recordsLoop
    (files : List SegmentFile)
    (afterLsn : Nat) : List Nat → Except LogError (List WalRecord)
  | [] => .ok []
  | segment :: rest =>
      let skipped : Bool :=
        match rest with
        | next :: _ => decide (next ≤ afterLsn + 1)
        | [] => false
      if skipped then
        recordsLoop files afterLsn rest
      else
        match readSegment files segment with
        | none => .error .io
        | some bytes =>
            match decodeSegmentHeader bytes with
            | .failed reason =>
                .error (.corruption segment 0 none reason)
            | .ok firstLsn =>
                if firstLsn ≠ segment then
                  .error (.corruption segment 0 none
                    "The segment header changed.")
                else
                  let scan := scanRecords bytes segment
                  match scan.stop with
                  | .corrupt reason =>
                      .error (.corruption segment scan.offset
                        (some scan.expected) reason)
                  | _ =>
                      match recordsLoop files afterLsn rest with
                      | .error error => .error error
                      | .ok later =>
                          .ok (scan.records.filter
                            (fun record => afterLsn < record.lsn) ++ later)

/-- `records`, consumed to its end. -/
def records
    (log : WriteAheadLog)
    (afterLsn : Nat) :
    WriteAheadLog × Except LogError (List WalRecord) :=
  match log.assertOpen with
  | .error error => (log, .error error)
  | .ok () =>
      let (log, flushed) :=
        if log.broken then (log, .ok ()) else log.flush
      match flushed with
      | .error error => (log, .error error)
      | .ok () => (log, recordsLoop log.files afterLsn log.segments)

/-- The loop of `truncateThrough`. -/
def truncateLoop
    (lsn : Nat) :
    List Nat → List SegmentFile → List Nat × List SegmentFile
  | oldest :: next :: rest, files =>
      if lsn + 1 < next then
        (oldest :: next :: rest, files)
      else
        truncateLoop lsn (next :: rest) (unlink files oldest)
  | segments, files => (segments, files)

/-- `truncateThrough`, when no file operation fails. -/
def truncateThrough
    (log : WriteAheadLog)
    (lsn : Nat) : WriteAheadLog × Except LogError Nat :=
  match log.assertWritable with
  | .error error => (log, .error error)
  | .ok () =>
      let (segments, files) := truncateLoop lsn log.segments log.files
      ({ log with segments := segments, files := files },
        .ok (log.segments.length - segments.length))

/-- `close`, when closing the file does not fail. -/
def close (log : WriteAheadLog) : WriteAheadLog × Except LogError Unit :=
  if log.closed then
    (log, .ok ())
  else
    let (log, written) :=
      if log.broken then
        (log, .ok ())
      else
        match log.flush with
        | (log, .error error) => (log, .error error)
        | (log, .ok ()) => log.commit
    ({ log with closed := true }, written)

end WriteAheadLog

end SinterDb.Wal
