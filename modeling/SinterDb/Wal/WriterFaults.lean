import SinterDb.Wal.Layout

namespace SinterDb.Wal

/-!
# Writing when the disk may be full

Whatever the operating system does with the writes and flushes of a log, each
method either does what it is for, or leaves the layout of the log as it was,
or breaks the log.
-/

/-- One call of `writeSync`. -/
inductive WriteCall where
  | wrote (count : Nat)
  | diskFull
  | failed
  deriving Repr, DecidableEq

/-- The bytes that arrive in a file. -/
def IoOutcome.arrived : IoOutcome → Bytes → Bytes
  | .done, bytes => bytes
  | .diskFull written, bytes => bytes.take written
  | .failed written, bytes => bytes.take written

/-- The outcome of a write of which some bytes were written before. -/
def IoOutcome.behind (count : Nat) : IoOutcome → IoOutcome
  | .done => .done
  | .diskFull written => .diskFull (count + written)
  | .failed written => .failed (count + written)

/--
The loop of `writeFully` on the bytes that are left, with what each call of
`writeSync` does; a call beyond the list takes all bytes.
-/
def writeLoop :
    List WriteCall → Bytes → Nat → Bytes → Bytes × IoOutcome
  | [], contents, position, bytes =>
      (writeAt contents position bytes, .done)
  | call :: calls, contents, position, bytes =>
      if bytes = [] then
        (contents, .done)
      else
        match call with
        | .wrote count =>
            let taken := bytes.take count
            let (contents, outcome) :=
              writeLoop calls (writeAt contents position taken)
                (position + taken.length) (bytes.drop taken.length)
            (contents, outcome.behind taken.length)
        | .diskFull => (contents, .diskFull 0)
        | .failed => (contents, .failed 0)

/-- Writing nothing changes nothing. -/
theorem writeAt_nil
    {contents : Bytes}
    {position : Nat}
    (within : position ≤ contents.length) :
    writeAt contents position [] = contents := by
  have noGap : position - contents.length = 0 := by omega
  simp [writeAt, noGap]

/-- Writes that follow one another write the bytes one behind the other. -/
theorem writeAt_writeAt
    {contents : Bytes}
    {position : Nat}
    (within : position ≤ contents.length)
    (first second : Bytes) :
    writeAt (writeAt contents position first) (position + first.length)
        second =
      writeAt contents position (first ++ second) := by
  have noGap : position - contents.length = 0 := by omega
  have front :
      (contents.take position ++ first).length = position + first.length := by
    rw [List.length_append, List.length_take, Nat.min_eq_left within]
  have taken :
      (contents.take position ++ first ++
          contents.drop (position + first.length)).take
          (position + first.length) =
        contents.take position ++ first := by
    rw [← front, List.take_left]
  have dropped :
      (contents.take position ++ first ++
          contents.drop (position + first.length)).drop
          (position + first.length + second.length) =
        contents.drop (position + first.length + second.length) := by
    rw [← List.drop_drop, ← front, List.drop_left, front, List.drop_drop]
  have stillNoGap :
      position + first.length -
          (contents.take position ++ first ++
            contents.drop (position + first.length)).length = 0 := by
    rw [List.length_append, front]
    omega
  unfold writeAt
  rw [noGap]
  simp only [List.replicate_zero, List.append_nil]
  rw [taken, dropped, stillNoGap]
  simp [Nat.add_assoc]

/-- A write keeps the bytes before it. -/
theorem le_length_writeAt
    {contents : Bytes}
    {position : Nat}
    (within : position ≤ contents.length)
    (bytes : Bytes) :
    position + bytes.length ≤ (writeAt contents position bytes).length := by
  unfold writeAt
  simp only [List.length_append, List.length_take]
  omega

/-- What arrives behind bytes that arrived before. -/
theorem arrived_behind
    (outcome : IoOutcome)
    (bytes : Bytes)
    (count : Nat) :
    bytes.take count ++ outcome.arrived (bytes.drop (bytes.take count).length) =
      (outcome.behind (bytes.take count).length).arrived bytes := by
  have split :=
    List.take_append_drop (bytes.take count).length bytes
  have isFront : bytes.take (bytes.take count).length = bytes.take count := by
    rw [List.length_take, ← List.take_take, List.take_length]
  rw [isFront] at split
  have further :
      ∀ written,
        bytes.take ((bytes.take count).length + written) =
          bytes.take count ++
            (bytes.drop (bytes.take count).length).take written := by
    intro written
    rw [List.take_add, isFront]
  cases outcome with
  | done =>
      exact split
  | diskFull written =>
      exact (further written).symm
  | failed written =>
      exact (further written).symm

/-- However `writeSync` splits a write, what arrives is all of the bytes or a
front part of them. -/
theorem writeLoop_eq
    (calls : List WriteCall)
    {contents : Bytes}
    {position : Nat}
    (within : position ≤ contents.length)
    (bytes : Bytes) :
    (writeLoop calls contents position bytes).1 =
      writeAt contents position
        ((writeLoop calls contents position bytes).2.arrived bytes) := by
  induction calls generalizing contents position bytes with
  | nil =>
      rfl
  | cons call rest inductionHypothesis =>
      unfold writeLoop
      by_cases empty : bytes = []
      · simp only [if_pos empty]
        rw [empty]
        exact (writeAt_nil within).symm
      · simp only [if_neg empty]
        cases call with
        | wrote count =>
            have later :=
              inductionHypothesis (le_length_writeAt within (bytes.take count))
                (bytes.drop (bytes.take count).length)
            simp only
            rw [later, writeAt_writeAt within, arrived_behind]
        | diskFull =>
            exact (writeAt_nil within).symm
        | failed =>
            exact (writeAt_nil within).symm

/-- The single outcome that `writeFully` takes stands for any calls of
`writeSync`. -/
theorem writeFully_writeLoop
    {log : WriteAheadLog}
    {name position : Nat}
    {contents bytes : Bytes}
    {calls : List WriteCall}
    {rest : List IoOutcome}
    (isContents :
      ∀ file ∈ log.files, file.nameLsn = name → file.bytes = contents)
    (within : position ≤ contents.length)
    (isOutcome :
      log.outcomes = (writeLoop calls contents position bytes).2 :: rest) :
    log.writeFully name bytes position =
      ({ log with
          outcomes := rest
          files :=
            changeFile log.files name
              fun _ => (writeLoop calls contents position bytes).1 },
        (writeLoop calls contents position bytes).2) := by
  have written :
      changeFile log.files name
          (fun current => writeAt current position
            ((writeLoop calls contents position bytes).2.arrived bytes)) =
        changeFile log.files name
          fun _ => (writeLoop calls contents position bytes).1 := by
    unfold changeFile
    apply List.map_congr_left
    intro file member
    by_cases isName : file.nameLsn = name
    · simp only [if_pos isName, isContents file member isName]
      rw [writeLoop_eq calls within]
    · simp only [if_neg isName]
  unfold WriteAheadLog.writeFully WriteAheadLog.takeOutcome
  simp only [isOutcome]
  rw [← written]
  cases (writeLoop calls contents position bytes).2 <;> rfl

/--
An open log keeps a layout: its files are exactly the encoded segments and the
queued records follow the last of them, whatever the next writes will do.
-/
structure LogKeeps
    (log : WriteAheadLog)
    (first : Nat)
    (full : List Segment)
    (last : Segment)
    (queued : List WalRecord) : Prop where
  files :
    log.files = full.map Segment.file ++ [last.file]
  segments :
    log.segments = full.map Segment.firstLsn ++ [last.firstLsn]
  chained :
    Chained first
      (full ++ [⟨last.firstLsn, last.records ++ queued⟩])
  positive :
    0 < first
  position :
    log.position = last.bytes.length + (encodeRecords queued).length
  nextLsn :
    log.nextLsn = last.nextLsn + queued.length
  pending :
    log.pending.flatten = encodeRecords queued
  pendingBytes :
    log.pendingBytes = (encodeRecords queued).length
  queuedInMemory :
    log.mode ≠ .memory → queued = []
  usable :
    log.broken = false ∧ log.closed = false

/-- Removing the last of several files whose names differ. -/
theorem unlink_last
    {segments : List Segment}
    {name : Nat}
    (others : ∀ segment ∈ segments, segment.firstLsn < name)
    (contents : Bytes) :
    unlink (segments.map Segment.file ++ [⟨name, contents⟩]) name =
      segments.map Segment.file := by
  unfold unlink
  rw [List.filter_append, List.filter_eq_self.mpr]
  · simp
  · intro file member
    obtain ⟨segment, inSegments, rfl⟩ := List.mem_map.mp member
    have smaller := others segment inSegments
    simpa [Segment.file] using Nat.ne_of_lt smaller

/-- No file has a name above all others. -/
theorem readSegment_fresh
    {segments : List Segment}
    {name : Nat}
    (others : ∀ segment ∈ segments, segment.firstLsn < name) :
    readSegment (segments.map Segment.file) name = none := by
  simp only [readSegment, Option.map_eq_none_iff, List.find?_eq_none]
  intro file member
  obtain ⟨segment, inSegments, rfl⟩ := List.mem_map.mp member
  have different : segment.firstLsn ≠ name :=
    Nat.ne_of_lt (others segment inSegments)
  simpa [Segment.file] using different

/-- What no method changes, with the outcomes that it has used up. -/
structure SameSettings (log later : WriteAheadLog) : Prop where
  mode : later.mode = log.mode
  groupCommit : later.groupCommit = log.groupCommit
  segmentSizeBytes : later.segmentSizeBytes = log.segmentSizeBytes
  outcomes : later.outcomes <:+ log.outcomes

/-- How a method can end, when it may meet faults. -/
inductive Ends
    {α : Type}
    (faults : Prop)
    (done : WriteAheadLog → α → Prop)
    (refused : WriteAheadLog → Prop) :
    WriteAheadLog × Except LogError α → Prop where
  | done
      {log : WriteAheadLog}
      {value : α}
      (isDone : done log value) :
      Ends faults done refused (log, .ok value)
  | refused
      {log : WriteAheadLog}
      {error : LogError}
      (isFault : faults)
      (isRefused : refused log) :
      Ends faults done refused (log, .error error)
  | broken
      {log : WriteAheadLog}
      {error : LogError}
      (isFault : faults)
      (isBroken : log.broken = true) :
      Ends faults done refused (log, .error error)

/-- An ending with less known about it. -/
theorem Ends.mono
    {α : Type}
    {faults faults' : Prop}
    {done done' : WriteAheadLog → α → Prop}
    {refused refused' : WriteAheadLog → Prop}
    {result : WriteAheadLog × Except LogError α}
    (ends : Ends faults done refused result)
    (isFault : faults → faults')
    (isDone : ∀ log value, done log value → done' log value)
    (isRefused : ∀ log, refused log → refused' log) :
    Ends faults' done' refused' result := by
  cases ends with
  | done proof =>
      exact .done (isDone _ _ proof)
  | refused fault proof =>
      exact .refused (isFault fault) (isRefused _ proof)
  | broken fault proof =>
      exact .broken (isFault fault) proof

/-- A log and the outcome that it waits for. -/
theorem takeOutcome_eq
    (log : WriteAheadLog) :
    log.takeOutcome =
      (log.outcomes.headD .done,
        { log with outcomes := log.outcomes.tail }) := by
  unfold WriteAheadLog.takeOutcome
  cases log with
  | mk files outcomes mode groupCommit segmentSizeBytes segments position
      nextLsn pending pendingBytes unsynced broken closed =>
      cases outcomes <;> rfl

/-- A fault is an outcome that was waited for. -/
theorem outcomes_ne_nil
    {log : WriteAheadLog}
    {outcome : IoOutcome}
    (isFault : log.outcomes.headD .done = outcome)
    (fails : outcome ≠ .done) :
    log.outcomes ≠ [] := by
  intro none
  rw [none] at isFault
  exact fails isFault.symm

namespace SameSettings

/-- The settings of a log are its own. -/
theorem refl (log : WriteAheadLog) : SameSettings log log :=
  ⟨rfl, rfl, rfl, List.suffix_refl _⟩

/-- Settings that stay the same over two methods. -/
theorem trans
    {log middle later : WriteAheadLog}
    (first : SameSettings log middle)
    (second : SameSettings middle later) :
    SameSettings log later :=
  ⟨second.mode.trans first.mode, second.groupCommit.trans first.groupCommit,
    second.segmentSizeBytes.trans first.segmentSizeBytes,
    second.outcomes.trans first.outcomes⟩

/-- A log without faults meets none later. -/
theorem faultless
    {log later : WriteAheadLog}
    (same : SameSettings log later)
    (faults : later.outcomes ≠ []) :
    log.outcomes ≠ [] := by
  intro none
  have suffix := same.outcomes
  rw [none] at suffix
  exact faults (List.suffix_nil.mp suffix)

end SameSettings

namespace LogKeeps

variable
  {log : WriteAheadLog}
  {first : Nat}
  {full : List Segment}
  {last : Segment}
  {queued : List WalRecord}

/-- The active segment is the last one. -/
theorem activePath
    (keeps : LogKeeps log first full last queued) :
    log.activePath = last.firstLsn := by
  simp [WriteAheadLog.activePath, keeps.segments]

/-- The other segments have smaller numbers than the active one. -/
theorem others
    (keeps : LogKeeps log first full last queued) :
    ∀ segment ∈ full, segment.firstLsn < last.firstLsn :=
  keeps.chained.lt_last

/-- A usable log accepts writes. -/
theorem assertWritable
    (keeps : LogKeeps log first full last queued) :
    log.assertWritable = .ok () := by
  simp [WriteAheadLog.assertWritable, keeps.usable.1, keeps.usable.2]

/-- Only the used up outcomes change. -/
theorem used
    (keeps : LogKeeps log first full last queued)
    (outcomes : List IoOutcome)
    (unsynced : Bool) :
    LogKeeps { log with outcomes := outcomes, unsynced := unsynced } first full
      last queued :=
  ⟨keeps.files, keeps.segments, keeps.chained, keeps.positive, keeps.position,
    keeps.nextLsn, keeps.pending, keeps.pendingBytes, keeps.queuedInMemory,
    keeps.usable⟩

/-- A write at the end of the active segment appends what arrives. -/
theorem writeFully_active
    (keeps : LogKeeps log first full last queued)
    (bytes : Bytes) :
    log.writeFully log.activePath bytes last.bytes.length =
      ({ log with
          outcomes := log.outcomes.tail
          files :=
            full.map Segment.file ++
              [⟨last.firstLsn, last.bytes ++
                (log.outcomes.headD .done).arrived bytes⟩] },
        log.outcomes.headD .done) := by
  have changed :=
    changeFile_last keeps.others last.bytes
      (fun contents => writeAt contents last.bytes.length
        ((log.outcomes.headD .done).arrived bytes))
  rw [writeAt_end] at changed
  unfold WriteAheadLog.writeFully
  rw [takeOutcome_eq]
  simp only [keeps.activePath, keeps.files, Segment.file] at changed ⊢
  rw [← changed]
  cases log.outcomes.headD .done <;> rfl

/-- After a full disk the log is as before. -/
theorem abandonWrite_diskFull
    (keeps : LogKeeps log first full last queued)
    (bytes : Bytes)
    (written : Nat) :
    ({ log with
        outcomes := log.outcomes.tail
        files :=
          full.map Segment.file ++
            [⟨last.firstLsn, last.bytes ++ bytes⟩] } :
        WriteAheadLog).abandonWrite (.diskFull written) last.bytes.length =
      ({ log with outcomes := log.outcomes.tail }, .diskFull) := by
  have changed :=
    changeFile_last keeps.others (last.bytes ++ bytes)
      (fun contents => contents.take last.bytes.length)
  rw [List.take_left] at changed
  have active := keeps.activePath
  unfold WriteAheadLog.activePath at active
  simp only [WriteAheadLog.abandonWrite, WriteAheadLog.activePath, active,
    changed]
  rw [keeps.files]
  rfl

/-- Flushing to stable storage succeeds or breaks the log. -/
theorem fsyncActive
    (log : WriteAheadLog) :
    Ends (log.outcomes ≠ [])
      (fun synced _ => synced = { log with outcomes := log.outcomes.tail })
      (fun _ => False) log.fsyncActive := by
  unfold WriteAheadLog.fsyncActive
  rw [takeOutcome_eq]
  cases head : log.outcomes.headD .done with
  | done =>
      exact .done rfl
  | diskFull written =>
      exact .broken (outcomes_ne_nil head (by simp)) rfl
  | failed written =>
      exact .broken (outcomes_ne_nil head (by simp)) rfl

/-- The settings of a log that has used up outcomes. -/
theorem sameSettings_used
    (log : WriteAheadLog)
    (unsynced : Bool) :
    SameSettings log
      { log with outcomes := log.outcomes.tail, unsynced := unsynced } :=
  ⟨rfl, rfl, rfl, List.tail_suffix _⟩

/-- Flushing moves the queued records into the last segment. -/
theorem flush
    (keeps : LogKeeps log first full last queued) :
    Ends (log.outcomes ≠ [])
      (fun flushed _ =>
        LogKeeps flushed first full ⟨last.firstLsn, last.records ++ queued⟩
          [] ∧
          SameSettings log flushed ∧
          flushed.nextLsn = log.nextLsn)
      (fun failed => failed = { log with outcomes := log.outcomes.tail })
      log.flush := by
  have combined :
      Segment.bytes ⟨last.firstLsn, last.records ++ queued⟩ =
        last.bytes ++ encodeRecords queued := by
    simp [Segment.bytes]
  have counted :
      Segment.nextLsn ⟨last.firstLsn, last.records ++ queued⟩ =
        last.nextLsn + queued.length := by
    simp [Segment.nextLsn, Nat.add_assoc]
  unfold WriteAheadLog.flush
  rw [keeps.assertWritable]
  simp only
  by_cases empty : log.pendingBytes = 0
  · rw [if_pos empty]
    have noneQueued : queued = [] := by
      apply encodeRecords_eq_nil.mp
      rw [keeps.pendingBytes] at empty
      exact List.length_eq_zero_iff.mp empty
    subst noneQueued
    exact .done ⟨by simpa using keeps, .refl log, rfl⟩
  · rw [if_neg empty]
    have start :
        log.position - log.pendingBytes = last.bytes.length := by
      rw [keeps.position, keeps.pendingBytes]
      omega
    rw [start, keeps.pending, keeps.writeFully_active]
    simp only
    cases head : log.outcomes.headD .done with
    | done =>
        refine .done ⟨⟨?_, keeps.segments, ?_, keeps.positive, ?_, ?_, rfl,
          rfl, fun _ => rfl, keeps.usable⟩, ⟨rfl, rfl, rfl,
          List.tail_suffix _⟩, rfl⟩
        · simp [Segment.file, combined, IoOutcome.arrived]
        · simpa using keeps.chained
        · simp [combined, keeps.position]
        · simp [counted, keeps.nextLsn]
    | diskFull written =>
        simp only [keeps.abandonWrite_diskFull]
        exact .refused (outcomes_ne_nil head (by simp)) rfl
    | failed written =>
        exact .broken (outcomes_ne_nil head (by simp)) rfl

/-- The next segment is chained behind the one that is full now. -/
theorem chained_next
    (keeps : LogKeeps log first full last queued)
    (nonempty : last.records ++ queued ≠ [])
    (inRange : log.nextLsn < 2 ^ 64) :
    Chained first
      ((full ++ [⟨last.firstLsn, last.records ++ queued⟩]) ++
        [⟨log.nextLsn, []⟩]) := by
  have lastSplit := Chained.append_singleton_iff.mp keeps.chained
  refine Chained.append_singleton_iff.mpr
    ⟨keeps.chained, ?_, ?_, inRange, trivial⟩
  · intro segment member
    rcases List.mem_append.mp member with inFull | isLast
    · exact lastSplit.2.1 segment inFull
    · rw [List.mem_singleton.mp isLast]
      exact nonempty
  · simp [keeps.nextLsn, Segment.nextLsn, Nat.add_assoc]

/-- Creating a segment adds its file or leaves the files alone. -/
theorem createSegment
    {segments : List Segment}
    (isFiles : log.files = segments.map Segment.file)
    {name : Nat}
    (others : ∀ segment ∈ segments, segment.firstLsn < name)
    (durable : Bool) :
    Ends (log.outcomes ≠ [])
      (fun created _ =>
        ∃ outcomes, outcomes <:+ log.outcomes ∧
          created =
            { log with
              outcomes := outcomes
              files :=
                segments.map Segment.file ++ [Segment.file ⟨name, []⟩] })
      (fun failed =>
        ∃ outcomes, outcomes <:+ log.outcomes ∧
          failed = { log with outcomes := outcomes })
      (log.createSegment name durable) := by
  have changed :=
    changeFile_last others []
      (fun contents => writeAt contents 0
        ((log.outcomes.headD .done).arrived (encodeSegmentHeader name)))
  have written :
      ({ log with files := log.files ++ [⟨name, []⟩] } :
          WriteAheadLog).writeFully name (encodeSegmentHeader name) 0 =
        ({ log with
            outcomes := log.outcomes.tail
            files :=
              segments.map Segment.file ++
                [⟨name, (log.outcomes.headD .done).arrived
                  (encodeSegmentHeader name)⟩] },
          log.outcomes.headD .done) := by
    have atStart :
        ∀ bytes : Bytes, writeAt [] 0 bytes = bytes := fun bytes => by
      simp [writeAt]
    rw [atStart] at changed
    unfold WriteAheadLog.writeFully
    rw [takeOutcome_eq, isFiles]
    simp only
    rw [← changed]
    cases log.outcomes.headD .done <;> rfl
  have removed :
      ∀ outcomes contents,
        ({ log with
            outcomes := outcomes
            files :=
              unlink (segments.map Segment.file ++ [⟨name, contents⟩]) name } :
            WriteAheadLog) =
          { log with outcomes := outcomes } := by
    intro outcomes contents
    rw [unlink_last others, ← isFiles]
  have fresh : readSegment log.files name = none := by
    rw [isFiles]
    exact readSegment_fresh others
  unfold WriteAheadLog.createSegment
  simp only [fresh, Option.isSome_none, Bool.false_eq_true, if_false, written]
  cases head : log.outcomes.headD .done with
  | done =>
      simp only [IoOutcome.arrived]
      cases durable with
      | false =>
          exact .done ⟨_, List.tail_suffix _, by simp [Segment.file,
            Segment.bytes]⟩
      | true =>
          simp only [if_true]
          rw [takeOutcome_eq]
          simp only
          have used :
              log.outcomes.tail.tail <:+ log.outcomes :=
            (List.tail_suffix _).trans (List.tail_suffix _)
          have faults :
              log.outcomes.tail.headD .done ≠ .done → log.outcomes ≠ [] := by
            intro fails none
            rw [none] at fails
            exact fails rfl
          cases next : log.outcomes.tail.headD .done with
          | done =>
              exact .done ⟨_, used, by simp [Segment.file, Segment.bytes]⟩
          | diskFull count =>
              simp only [removed]
              exact .refused (faults (by rw [next]; simp)) ⟨_, used, rfl⟩
          | failed count =>
              simp only [removed]
              exact .refused (faults (by rw [next]; simp)) ⟨_, used, rfl⟩
  | diskFull count =>
      rw [removed]
      exact .refused (outcomes_ne_nil head (by simp))
        ⟨_, List.tail_suffix _, rfl⟩
  | failed count =>
      rw [removed]
      exact .refused (outcomes_ne_nil head (by simp))
        ⟨_, List.tail_suffix _, rfl⟩

/-- Switching to a new segment starts an empty one behind the others. -/
theorem switchSegment
    (keeps : LogKeeps log first full last [])
    (nonempty : last.records ≠ [])
    (inRange : log.nextLsn < 2 ^ 64)
    (durable : Bool) :
    Ends (log.outcomes ≠ [])
      (fun rotated _ =>
        LogKeeps rotated first (full ++ [last]) ⟨log.nextLsn, []⟩ [] ∧
          SameSettings log rotated ∧
          rotated.nextLsn = log.nextLsn)
      (fun failed =>
        LogKeeps failed first full last [] ∧
          SameSettings log failed ∧
          failed.nextLsn = log.nextLsn)
      (log.switchSegment durable) := by
  have chained :=
    keeps.chained_next (by simpa using nonempty) inRange
  rw [List.append_nil] at chained
  have isFiles : log.files = (full ++ [last]).map Segment.file := by
    rw [keeps.files, List.map_append, List.map_singleton]
  have creates :=
    createSegment isFiles chained.lt_last durable
  unfold WriteAheadLog.switchSegment
  revert creates
  generalize log.createSegment log.nextLsn durable = result
  intro creates
  cases creates with
  | done isDone =>
      obtain ⟨outcomes, used, rfl⟩ := isDone
      refine .done ⟨⟨rfl, ?_, chained, keeps.positive, ?_, ?_, ?_, ?_,
        fun _ => rfl, keeps.usable⟩, ⟨rfl, rfl, rfl, used⟩, rfl⟩
      · simp [keeps.segments]
      · simp [Segment.bytes]
      · simp [Segment.nextLsn]
      · simpa using keeps.pending
      · simpa using keeps.pendingBytes
  | refused isFault isRefused =>
      obtain ⟨outcomes, used, rfl⟩ := isRefused
      exact .refused isFault ⟨keeps.used outcomes log.unsynced,
        ⟨rfl, rfl, rfl, used⟩, rfl⟩
  | broken isFault isBroken =>
      exact .broken isFault isBroken

/-- Rotating starts a new segment, or leaves the records where they are. -/
theorem rotate
    (keeps : LogKeeps log first full last queued)
    (nonempty : last.records ++ queued ≠ [])
    (inRange : log.nextLsn < 2 ^ 64) :
    Ends (log.outcomes ≠ [])
      (fun rotated _ =>
        LogKeeps rotated first
          (full ++ [⟨last.firstLsn, last.records ++ queued⟩])
          ⟨log.nextLsn, []⟩ [] ∧
          SameSettings log rotated ∧
          rotated.nextLsn = log.nextLsn)
      (fun failed =>
        ∃ last' queued',
          LogKeeps failed first full last' queued' ∧
            last'.records ++ queued' = last.records ++ queued ∧
            SameSettings log failed ∧
            failed.nextLsn = log.nextLsn)
      log.rotate := by
  have flushes := keeps.flush
  unfold WriteAheadLog.rotate
  revert flushes
  generalize log.flush = result
  intro flushes
  cases flushes with
  | refused isFault isRefused =>
      subst isRefused
      exact .refused isFault ⟨last, queued, keeps.used _ log.unsynced, rfl,
        sameSettings_used log log.unsynced, rfl⟩
  | broken isFault isBroken =>
      exact .broken isFault isBroken
  | @done flushed value isDone =>
      obtain ⟨flushedKeeps, same, sameNext⟩ := isDone
      -- The log that switches differs in what it knows to be stable only.
      have switches :
          ∀ outcomes unsynced,
            outcomes <:+ flushed.outcomes →
              Ends (log.outcomes ≠ [])
                (fun rotated _ =>
                  LogKeeps rotated first
                    (full ++ [⟨last.firstLsn, last.records ++ queued⟩])
                    ⟨log.nextLsn, []⟩ [] ∧
                    SameSettings log rotated ∧
                    rotated.nextLsn = log.nextLsn)
                (fun failed =>
                  ∃ last' queued',
                    LogKeeps failed first full last' queued' ∧
                      last'.records ++ queued' = last.records ++ queued ∧
                      SameSettings log failed ∧
                      failed.nextLsn = log.nextLsn)
                (({ flushed with outcomes := outcomes, unsynced := unsynced } :
                  WriteAheadLog).switchSegment (log.mode == .flushed)) := by
        intro outcomes unsynced used
        have sameThen :
            SameSettings log
              { flushed with outcomes := outcomes, unsynced := unsynced } :=
          same.trans ⟨rfl, rfl, rfl, used⟩
        have switch :=
          (flushedKeeps.used outcomes unsynced).switchSegment nonempty
            (by simpa [sameNext] using inRange) (log.mode == .flushed)
        refine switch.mono (fun faults => sameThen.faultless faults) ?_ ?_
        · rintro rotated - ⟨rotatedKeeps, sameLater, sameLaterNext⟩
          rw [← sameNext]
          exact ⟨rotatedKeeps, sameThen.trans sameLater, sameLaterNext⟩
        · rintro failed ⟨failedKeeps, sameLater, sameLaterNext⟩
          exact ⟨_, [], failedKeeps, by simp, sameThen.trans sameLater,
            sameLaterNext.trans sameNext⟩
      cases durable : (log.mode == .flushed) with
      | false =>
          have switch :=
            switches flushed.outcomes flushed.unsynced (List.suffix_refl _)
          rw [durable] at switch
          simpa using switch
      | true =>
          have syncs := fsyncActive flushed
          simp only [if_true]
          revert syncs
          generalize flushed.fsyncActive = synced
          intro syncs
          cases syncs with
          | done isSynced =>
              subst isSynced
              have switch :=
                switches flushed.outcomes.tail false (List.tail_suffix _)
              rw [durable] at switch
              exact switch
          | refused isFault isRefused =>
              exact isRefused.elim
          | broken isFault isBroken =>
              exact .broken (same.faultless isFault) isBroken

/-- Adding a record behind the held ones keeps the chain. -/
theorem chained_snoc
    (keeps : LogKeeps log first full last queued)
    {record : WalRecord}
    (numbered : record.lsn = log.nextLsn)
    (inRange : RecordInRange record.lsn record.type record.payload) :
    Chained first
      (full ++ [⟨last.firstLsn, (last.records ++ queued) ++ [record]⟩]) := by
  obtain ⟨fullChained, nonempty, starts, bound, contiguous⟩ :=
    Chained.append_singleton_iff.mp keeps.chained
  refine Chained.append_singleton_iff.mpr
    ⟨fullChained, nonempty, starts, bound, ?_⟩
  refine Contiguous.append_iff.mpr ⟨contiguous, ?_⟩
  refine ⟨?_, inRange, trivial⟩
  rw [numbered, keeps.nextLsn, Segment.nextLsn, List.length_append]
  dsimp only
  omega

/-- How adding a record can end. -/
def EndsAppend
    (log : WriteAheadLog)
    (first : Nat)
    (full : List Segment)
    (last : Segment)
    (queued : List WalRecord)
    (record : WalRecord) :
    WriteAheadLog × Except LogError Nat → Prop :=
  Ends (log.outcomes ≠ [])
    (fun appended lsn =>
      lsn = log.nextLsn ∧
        ∃ full' last' queued',
          LogKeeps appended first full' last' queued' ∧
            heldRecords full' last' queued' =
              heldRecords full last queued ++ [record] ∧
            SameSettings log appended)
    (fun failed =>
      ∃ full' last' queued',
        LogKeeps failed first full' last' queued' ∧
          heldRecords full' last' queued' = heldRecords full last queued ∧
          SameSettings log failed)

/-- Under the memory concern a record is queued behind the others. -/
theorem queueRecord
    (keeps : LogKeeps log first full last queued)
    (inMemory : log.mode = .memory)
    (record : WalRecord)
    (numbered : record.lsn = log.nextLsn)
    (inRange : RecordInRange record.lsn record.type record.payload) :
    EndsAppend log first full last queued record
      (log.queueRecord log.nextLsn
        (recordBytes record.lsn record.type record.payload)) := by
  generalize isBytes :
    recordBytes record.lsn record.type record.payload = bytes
  have queuedKeeps :
      LogKeeps
        { log with
          pending := log.pending ++ [bytes]
          pendingBytes := log.pendingBytes + bytes.length
          position := log.position + bytes.length
          nextLsn := log.nextLsn + 1 }
        first full last (queued ++ [record]) := by
    refine ⟨keeps.files, keeps.segments, ?_, keeps.positive, ?_, ?_, ?_, ?_,
      fun other => (other inMemory).elim, keeps.usable⟩
    · simpa using keeps.chained_snoc numbered inRange
    · simp [keeps.position, Nat.add_assoc, ← isBytes]
    · simp [keeps.nextLsn, Nat.add_assoc]
    · simp [keeps.pending, ← isBytes]
    · simp [keeps.pendingBytes, ← isBytes]
  have flushes := queuedKeeps.flush
  unfold WriteAheadLog.queueRecord EndsAppend
  dsimp only
  split
  · revert flushes
    generalize WriteAheadLog.flush _ = result
    intro flushes
    cases flushes with
    | done isDone =>
        obtain ⟨flushedKeeps, same, -⟩ := isDone
        refine .done ⟨rfl, full, _, [], flushedKeeps, ?_, ?_⟩
        · simp [heldRecords]
        · exact ⟨same.mode, same.groupCommit, same.segmentSizeBytes,
            same.outcomes⟩
    | refused isFault isRefused =>
        subst isRefused
        have notBroken : ¬ log.broken = true := by simp [keeps.usable.1]
        simp only [if_neg notBroken]
        refine .refused isFault ⟨full, last, queued, ?_, rfl, ?_⟩
        · simpa using keeps.used log.outcomes.tail log.unsynced
        · exact ⟨rfl, rfl, rfl, List.tail_suffix _⟩
    | broken isFault isBroken =>
        simp only [isBroken, if_true]
        exact .broken isFault isBroken
  · exact .done ⟨rfl, full, last, queued ++ [record], queuedKeeps, by
      simp [heldRecords], ⟨rfl, rfl, rfl, List.suffix_refl _⟩⟩

/-- Under the other concerns a record is written to the active segment. -/
theorem writeRecord
    (keeps : LogKeeps log first full last queued)
    (onDisk : log.mode ≠ .memory)
    (record : WalRecord)
    (numbered : record.lsn = log.nextLsn)
    (inRange : RecordInRange record.lsn record.type record.payload) :
    EndsAppend log first full last queued record
      (log.writeRecord log.nextLsn
        (recordBytes record.lsn record.type record.payload)) := by
  have noneQueued := keeps.queuedInMemory onDisk
  subst noneQueued
  have atEnd : log.position = last.bytes.length := by
    simpa using keeps.position
  have writtenKeeps :
      ∀ outcomes unsynced,
        LogKeeps
          { log with
            outcomes := outcomes
            files :=
              full.map Segment.file ++
                [⟨last.firstLsn, last.bytes ++
                  recordBytes record.lsn record.type record.payload⟩]
            unsynced := unsynced
            position :=
              log.position +
                (recordBytes record.lsn record.type record.payload).length
            nextLsn := log.nextLsn + 1 }
          first full ⟨last.firstLsn, last.records ++ [record]⟩ [] := by
    intro outcomes unsynced
    refine ⟨?_, keeps.segments, ?_, keeps.positive, ?_, ?_,
      by simpa using keeps.pending, by simpa using keeps.pendingBytes,
      fun _ => rfl, keeps.usable⟩
    · simp [Segment.file, Segment.bytes]
    · simpa using keeps.chained_snoc numbered inRange
    · simp [Segment.bytes, atEnd, Nat.add_assoc]
    · simp [keeps.nextLsn, Segment.nextLsn, Nat.add_assoc]
  have held :
      heldRecords full ⟨last.firstLsn, last.records ++ [record]⟩ [] =
        heldRecords full last [] ++ [record] := by
    simp [heldRecords]
  have written :=
    keeps.writeFully_active
      (recordBytes record.lsn record.type record.payload)
  rw [← atEnd] at written
  unfold WriteAheadLog.writeRecord EndsAppend
  rw [written]
  cases head : log.outcomes.headD .done with
  | diskFull count =>
      have abandoned :=
        keeps.abandonWrite_diskFull
          ((IoOutcome.diskFull count).arrived
            (recordBytes record.lsn record.type record.payload)) count
      rw [← atEnd] at abandoned
      simp only [abandoned]
      exact .refused (outcomes_ne_nil head (by simp)) ⟨full, last, [],
        keeps.used _ log.unsynced, rfl, sameSettings_used log log.unsynced⟩
  | failed count =>
      exact .broken (outcomes_ne_nil head (by simp)) rfl
  | done =>
      simp only [IoOutcome.arrived]
      by_cases flushed : log.mode = .flushed
      · rw [if_pos flushed]
        by_cases grouped : log.groupCommit = true
        · rw [if_pos grouped]
          exact .done ⟨rfl, full, _, [], writtenKeeps _ true, held,
            ⟨rfl, rfl, rfl, List.tail_suffix _⟩⟩
        · rw [if_neg grouped]
          have syncs := fsyncActive { log with
            outcomes := log.outcomes.tail
            files :=
              full.map Segment.file ++
                [⟨last.firstLsn, last.bytes ++
                  recordBytes record.lsn record.type record.payload⟩] }
          revert syncs
          generalize WriteAheadLog.fsyncActive _ = synced
          intro syncs
          have faults : log.outcomes.tail ≠ [] → log.outcomes ≠ [] := by
            intro fails none
            rw [none] at fails
            exact fails rfl
          cases syncs with
          | done isSynced =>
              subst isSynced
              exact .done ⟨rfl, full, _, [], writtenKeeps _ log.unsynced, held,
                ⟨rfl, rfl, rfl,
                  (List.tail_suffix _).trans (List.tail_suffix _)⟩⟩
          | refused isFault isRefused =>
              exact isRefused.elim
          | broken isFault isBroken =>
              exact .broken (faults isFault) isBroken
      · rw [if_neg flushed]
        exact .done ⟨rfl, full, _, [], writtenKeeps _ log.unsynced, held,
          ⟨rfl, rfl, rfl, List.tail_suffix _⟩⟩

/-- The held records are numbered from the first one on. -/
theorem contiguous
    (keeps : LogKeeps log first full last queued) :
    Contiguous first (heldRecords full last queued) := by
  have contiguous := keeps.chained.contiguous
  simpa [heldRecords, allRecords] using contiguous

/-- The sequence number that the next record gets counts the records. -/
theorem nextLsn_eq
    (keeps : LogKeeps log first full last queued) :
    log.nextLsn = first + (heldRecords full last queued).length := by
  have starts := keeps.chained.last_first
  rw [keeps.nextLsn, Segment.nextLsn]
  simp only [heldRecords, List.length_append] at starts ⊢
  omega

/-- Whether or not the log rotates, a record goes behind a kept layout. -/
theorem prepareSegment
    (keeps : LogKeeps log first full last queued)
    (inRange : log.nextLsn < 2 ^ 64)
    (size : Nat) :
    Ends (log.outcomes ≠ [])
      (fun ready _ =>
        ∃ full' last' queued',
          LogKeeps ready first full' last' queued' ∧
            heldRecords full' last' queued' = heldRecords full last queued ∧
            SameSettings log ready ∧
            ready.nextLsn = log.nextLsn)
      (fun failed =>
        ∃ full' last' queued',
          LogKeeps failed first full' last' queued' ∧
            heldRecords full' last' queued' = heldRecords full last queued ∧
            SameSettings log failed)
      (if segmentHeaderSize < log.position ∧
          log.segmentSizeBytes < log.position + size then
        log.rotate
      else
        (log, .ok ())) := by
  split
  · rename_i due
    have nonempty : last.records ++ queued ≠ [] := by
      intro empty
      have longer := due.1
      rw [keeps.position] at longer
      simp only [List.append_eq_nil_iff] at empty
      simp [Segment.bytes, empty.1, empty.2] at longer
    refine (keeps.rotate nonempty inRange).mono id ?_ ?_
    · rintro rotated - ⟨rotatedKeeps, same, sameNext⟩
      exact ⟨_, _, _, rotatedKeeps, by simp [heldRecords, allRecords], same,
        sameNext⟩
    · rintro failed ⟨last', queued', failedKeeps, records, same, -⟩
      refine ⟨full, last', queued', failedKeeps, ?_, same⟩
      simp only [heldRecords, List.append_assoc] at records ⊢
      rw [records]
  · exact .done ⟨full, last, queued, keeps, rfl, .refl log, rfl⟩

/--
Appending a record that can be encoded adds exactly that record behind the
held ones, or leaves the held ones as they are, or breaks the log.
-/
theorem append
    (keeps : LogKeeps log first full last queued)
    {type : Int}
    {payload encoded : Bytes}
    (encodes : encodeRecord log.nextLsn type payload = .ok encoded) :
    EndsAppend log first full last queued ⟨log.nextLsn, type.toNat, payload⟩
      (log.append type payload) := by
  have positive : 0 < log.nextLsn := by
    rw [keeps.nextLsn_eq]
    have := keeps.positive
    omega
  obtain ⟨inRange, rfl⟩ := encodeRecord_ok positive encodes
  have prepares :=
    keeps.prepareSegment inRange.lsnInRange
      (recordBytes log.nextLsn type.toNat payload).length
  unfold WriteAheadLog.append
  rw [keeps.assertWritable]
  simp only [encodes]
  revert prepares
  generalize
    (if segmentHeaderSize < log.position ∧
        log.segmentSizeBytes < log.position +
          (recordBytes log.nextLsn type.toNat payload).length then
      log.rotate
    else
      (log, .ok ())) = prepared
  intro prepares
  cases prepares with
  | refused isFault isRefused =>
      exact .refused isFault isRefused
  | broken isFault isBroken =>
      exact .broken isFault isBroken
  | @done ready value isDone =>
      obtain ⟨full', last', queued', readyKeeps, records, same, sameNext⟩ :=
        isDone
      -- What the two ways of adding the record say, seen from the start.
      have adds :
          ∀ result,
            EndsAppend ready first full' last' queued'
                ⟨log.nextLsn, type.toNat, payload⟩ result →
              EndsAppend log first full last queued
                ⟨log.nextLsn, type.toNat, payload⟩ result := by
        intro result ends
        refine Ends.mono ends same.faultless ?_ ?_
        · rintro appended lsn ⟨isLsn, full'', last'', queued'', appendedKeeps,
            held, sameLater⟩
          exact ⟨isLsn.trans sameNext, full'', last'', queued'',
            appendedKeeps, by rw [held, records], same.trans sameLater⟩
        · rintro failed ⟨full'', last'', queued'', failedKeeps, held,
            sameLater⟩
          exact ⟨full'', last'', queued'', failedKeeps, held.trans records,
            same.trans sameLater⟩
      simp only
      split
      · rename_i inMemory
        have queues :=
          readyKeeps.queueRecord inMemory ⟨log.nextLsn, type.toNat, payload⟩
            sameNext.symm inRange
        rw [sameNext] at queues
        exact adds _ queues
      · rename_i onDisk
        have writes :=
          readyKeeps.writeRecord onDisk ⟨log.nextLsn, type.toNat, payload⟩
            sameNext.symm inRange
        rw [sameNext] at writes
        exact adds _ writes

/-- Appending a record that cannot be encoded changes nothing. -/
theorem append_rejected
    (keeps : LogKeeps log first full last queued)
    {type : Int}
    {payload : Bytes}
    {error : RangeError}
    (rejects : encodeRecord log.nextLsn type payload = .error error) :
    log.append type payload = (log, .error (.range error)) := by
  unfold WriteAheadLog.append
  rw [keeps.assertWritable]
  dsimp only
  rw [rejects]

end LogKeeps

end SinterDb.Wal
