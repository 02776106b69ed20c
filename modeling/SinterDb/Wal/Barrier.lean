import SinterDb.Wal.LogRun
import SinterDb.Lib.Trace

namespace SinterDb.Wal

/-!
# What a log has flushed

Which records a log writes, and which segment files it flushes to stable
storage.  With group commit a record waits for the flush behind it, and the
flag `unsynced` says that one does.
-/

/-- A record was written to a segment, or a segment file was flushed. -/
inductive LogEvent where
  | appended (segment lsn : Nat)
  | fsynced (segment : Nat)
  deriving Repr, DecidableEq

/-- The segment that waits for a flush. -/
def LogEvent.asks : LogEvent → Option Nat
  | .appended segment _ => some segment
  | .fsynced _ => none

/-- The segment that was flushed. -/
def LogEvent.settles : LogEvent → Option Nat
  | .appended _ _ => none
  | .fsynced segment => some segment

/-- Every record was written before a flush of its segment. -/
def Flushed (events : List LogEvent) : Prop :=
  Trace.Settled LogEvent.asks LogEvent.settles events

/-- The segments with records that no flush has covered. -/
abbrev unflushed (events : List LogEvent) : List Nat :=
  Trace.openRequests LogEvent.asks LogEvent.settles events

namespace WriteAheadLog

/-- The flush of `fsyncActive`. -/
def fsyncActiveEvents (log : WriteAheadLog) : List LogEvent :=
  match log.fsyncActive with
  | (_, .ok ()) => [.fsynced log.activePath]
  | (_, .error _) => []

/-- The flush of `commit`. -/
def commitEvents (log : WriteAheadLog) : List LogEvent :=
  if !log.unsynced || log.closed then
    []
  else
    match log.assertWritable with
    | .error _ => []
    | .ok () => log.fsyncActiveEvents

/-- The flush of `sync`. -/
def syncEvents (log : WriteAheadLog) : List LogEvent :=
  match log.flush with
  | (_, .error _) => []
  | (log, .ok ()) => log.fsyncActiveEvents

/-- The flush of `switchSegment`, which is of the new file. -/
def switchSegmentEvents
    (log : WriteAheadLog)
    (durable : Bool) : List LogEvent :=
  match log.createSegment log.nextLsn durable with
  | (_, .error _) => []
  | (_, .ok ()) => if durable then [.fsynced log.nextLsn] else []

/-- The flushes of `rotate`. -/
def rotateEvents (log : WriteAheadLog) : List LogEvent :=
  let durable := log.mode == .flushed
  match log.flush with
  | (_, .error _) => []
  | (log, .ok ()) =>
      if durable then
        match log.fsyncActive with
        | (_, .error _) => []
        | (later, .ok ()) =>
            let marked : WriteAheadLog := { later with unsynced := false }
            .fsynced log.activePath :: marked.switchSegmentEvents durable
      else
        log.switchSegmentEvents durable

/-- The record of `queueRecord`. -/
def queueRecordEvents
    (log : WriteAheadLog)
    (lsn : Nat)
    (record : Bytes) : List LogEvent :=
  match log.queueRecord lsn record with
  | (_, .ok _) => [.appended log.activePath lsn]
  | (_, .error _) => []

/-- The record of `writeRecord`, and its flush without group commit. -/
def writeRecordEvents
    (log : WriteAheadLog)
    (lsn : Nat)
    (record : Bytes) : List LogEvent :=
  let written := .appended log.activePath lsn
  match log.writeFully log.activePath record log.position with
  | (log, .done) =>
      if log.mode = .flushed ∧ log.groupCommit = false then
        written :: log.fsyncActiveEvents
      else
        [written]
  | _ => []

/-- The record of `append`, and the flushes of its rotation. -/
def appendEvents
    (log : WriteAheadLog)
    (type : Int)
    (payload : Bytes) : List LogEvent :=
  match log.assertWritable with
  | .error _ => []
  | .ok () =>
      let lsn := log.nextLsn
      match encodeRecord lsn type payload with
      | .error _ => []
      | .ok record =>
          let rotates : Bool :=
            segmentHeaderSize < log.position &&
              log.segmentSizeBytes < log.position + record.length
          let rotated := if rotates then log.rotate else (log, .ok ())
          let flushes := if rotates then log.rotateEvents else []
          match rotated with
          | (_, .error _) => flushes
          | (log, .ok ()) =>
              flushes ++
                if log.mode = .memory then
                  log.queueRecordEvents lsn record
                else
                  log.writeRecordEvents lsn record

/-- What happens in a call. -/
def events (log : WriteAheadLog) : LogCall → List LogEvent
  | .append type payload => log.appendEvents type payload
  | .flush => []
  | .commit => log.commitEvents
  | .sync => log.syncEvents
  | .truncateThrough _ => []
  | .records _ => []

/-- The log after several calls. -/
def calls (log : WriteAheadLog) : List LogCall → WriteAheadLog
  | [] => log
  | call :: rest => (log.call call).1.calls rest

/-- What happens in several calls. -/
def eventsOf (log : WriteAheadLog) : List LogCall → List LogEvent
  | [] => []
  | call :: rest => log.events call ++ (log.call call).1.eventsOf rest

end WriteAheadLog

/--
A log with group commit, and what has happened to it: all records that wait for
a flush are in the active segment, and the flag says whether there are any.
-/
structure Barrier (log : WriteAheadLog) (events : List LogEvent) : Prop where
  mode : log.mode = .flushed
  grouped : log.groupCommit = true
  isOpen : log.closed = false
  active : ∀ segment ∈ unflushed events, segment = log.activePath
  marked : log.unsynced = false → unflushed events = []

/-- What flushes go by is the same. -/
structure SameFlags (log later : WriteAheadLog) : Prop where
  mode : later.mode = log.mode
  groupCommit : later.groupCommit = log.groupCommit
  closed : later.closed = log.closed
  activePath : later.activePath = log.activePath
  unsynced : later.unsynced = log.unsynced

section Frames

variable {log : WriteAheadLog}

/-- One change after another. -/
theorem SameFlags.trans
    {first second third : WriteAheadLog}
    (before : SameFlags first second)
    (after : SameFlags second third) :
    SameFlags first third :=
  ⟨after.mode.trans before.mode, after.groupCommit.trans before.groupCommit,
    after.closed.trans before.closed,
    after.activePath.trans before.activePath,
    after.unsynced.trans before.unsynced⟩

/-- Nothing has changed. -/
theorem SameFlags.refl
    (log : WriteAheadLog) :
    SameFlags log log :=
  ⟨rfl, rfl, rfl, rfl, rfl⟩

/-- Taking an outcome changes no flag. -/
theorem sameFlags_takeOutcome
    (log : WriteAheadLog) :
    SameFlags log log.takeOutcome.2 := by
  unfold WriteAheadLog.takeOutcome
  cases log.outcomes with
  | nil =>
      exact .refl log
  | cons outcome rest =>
      exact ⟨rfl, rfl, rfl, rfl, rfl⟩

/-- A write changes no flag. -/
theorem sameFlags_writeFully
    (log : WriteAheadLog)
    (name : Nat)
    (bytes : Bytes)
    (position : Nat) :
    SameFlags log (log.writeFully name bytes position).1 := by
  have same := sameFlags_takeOutcome log
  exact ⟨same.mode, same.groupCommit, same.closed, same.activePath,
    same.unsynced⟩

/-- A write that is given up changes no flag. -/
theorem sameFlags_abandonWrite
    (log : WriteAheadLog)
    (outcome : IoOutcome)
    (goodEnd : Nat) :
    SameFlags log (log.abandonWrite outcome goodEnd).1 := by
  cases outcome <;> exact ⟨rfl, rfl, rfl, rfl, rfl⟩

/-- `flush` changes no flag. -/
theorem sameFlags_flush
    (log : WriteAheadLog) :
    SameFlags log log.flush.1 := by
  unfold WriteAheadLog.flush
  cases log.assertWritable with
  | error error =>
      exact .refl log
  | ok value =>
      dsimp only
      split_ifs
      · exact .refl log
      · have written :=
          sameFlags_writeFully log log.activePath log.pending.flatten
            (log.position - log.pendingBytes)
        revert written
        generalize
          log.writeFully log.activePath log.pending.flatten
            (log.position - log.pendingBytes) = result
        intro written
        rcases result with ⟨later, _ | size | size⟩
        · exact written.trans ⟨rfl, rfl, rfl, rfl, rfl⟩
        · exact written.trans (sameFlags_abandonWrite later _ _)
        · exact written.trans (sameFlags_abandonWrite later _ _)

/-- Flushing to stable storage changes no flag. -/
theorem sameFlags_fsyncActive
    (log : WriteAheadLog) :
    SameFlags log log.fsyncActive.1 := by
  have taken := sameFlags_takeOutcome log
  unfold WriteAheadLog.fsyncActive
  revert taken
  generalize log.takeOutcome = result
  intro taken
  rcases result with ⟨_ | size | size, later⟩
  · exact taken
  · exact taken.trans ⟨rfl, rfl, rfl, rfl, rfl⟩
  · exact taken.trans ⟨rfl, rfl, rfl, rfl, rfl⟩

/-- A new segment file changes no flag. -/
theorem sameFlags_createSegment
    (log : WriteAheadLog)
    (firstLsn : Nat)
    (durable : Bool) :
    SameFlags log (log.createSegment firstLsn durable).1 := by
  unfold WriteAheadLog.createSegment
  by_cases isThere : (readSegment log.files firstLsn).isSome = true
  · rw [if_pos isThere]
    exact .refl log
  · rw [if_neg isThere]
    dsimp only
    have written :=
      sameFlags_writeFully
        { log with files := log.files ++ [⟨firstLsn, []⟩] } firstLsn
        (encodeSegmentHeader firstLsn) 0
    revert written
    generalize
      WriteAheadLog.writeFully
        { log with files := log.files ++ [⟨firstLsn, []⟩] } firstLsn
        (encodeSegmentHeader firstLsn) 0 = result
    intro written
    have same : SameFlags log result.1 :=
      ⟨written.mode, written.groupCommit, written.closed,
        written.activePath, written.unsynced⟩
    rcases result with ⟨later, _ | size | size⟩
    · dsimp only
      split_ifs
      · have taken := sameFlags_takeOutcome later
        rcases isTaken : later.takeOutcome with ⟨_ | size | size, last⟩ <;>
          rw [isTaken] at taken
        · exact same.trans taken
        · exact same.trans (taken.trans ⟨rfl, rfl, rfl, rfl, rfl⟩)
        · exact same.trans (taken.trans ⟨rfl, rfl, rfl, rfl, rfl⟩)
      · exact same
    · exact same.trans ⟨rfl, rfl, rfl, rfl, rfl⟩
    · exact same.trans ⟨rfl, rfl, rfl, rfl, rfl⟩

/-- Compaction never removes the active segment. -/
theorem getLastD_truncateLoop
    (lsn : Nat)
    (segments : List Nat)
    (files : List SegmentFile) :
    (WriteAheadLog.truncateLoop lsn segments files).1.getLastD 0 =
      segments.getLastD 0 := by
  induction segments generalizing files with
  | nil =>
      rfl
  | cons oldest rest inductionHypothesis =>
      cases rest with
      | nil =>
          rfl
      | cons next rest =>
          unfold WriteAheadLog.truncateLoop
          split_ifs
          · rfl
          · rw [inductionHypothesis]
            simp [List.getLastD]

/-- `truncateThrough` changes no flag. -/
theorem sameFlags_truncateThrough
    (log : WriteAheadLog)
    (lsn : Nat) :
    SameFlags log (log.truncateThrough lsn).1 := by
  unfold WriteAheadLog.truncateThrough
  cases log.assertWritable with
  | error error =>
      exact .refl log
  | ok value =>
      exact ⟨rfl, rfl, rfl,
        getLastD_truncateLoop lsn log.segments log.files, rfl⟩

/-- `records` changes no flag. -/
theorem sameFlags_records
    (log : WriteAheadLog)
    (afterLsn : Nat) :
    SameFlags log (log.records afterLsn).1 := by
  have flushed := sameFlags_flush log
  unfold WriteAheadLog.records
  cases log.assertOpen with
  | error error =>
      exact .refl log
  | ok value =>
      dsimp only
      split_ifs
      · exact .refl log
      · revert flushed
        generalize log.flush = result
        intro flushed
        rcases result with ⟨later, error | value⟩ <;> exact flushed

end Frames

section Waiting

/-- A record waits for a flush of its segment. -/
@[simp] theorem unflushed_appended
    (events : List LogEvent)
    (segment lsn : Nat) :
    unflushed (events ++ [.appended segment lsn]) =
      unflushed events ++ [segment] := by
  unfold unflushed
  rw [Trace.openRequests_concat]
  unfold Trace.nextOpen
  simp [LogEvent.asks, LogEvent.settles]

/-- A flush covers the records of its segment. -/
@[simp] theorem unflushed_fsynced
    (events : List LogEvent)
    (segment : Nat) :
    unflushed (events ++ [.fsynced segment]) =
      (unflushed events).filter fun waiting => decide (waiting ≠ segment) := by
  unfold unflushed
  rw [Trace.openRequests_concat]
  unfold Trace.nextOpen
  simp [LogEvent.asks, LogEvent.settles, eq_comm]

end Waiting

namespace Barrier

variable
  {log later : WriteAheadLog}
  {events : List LogEvent}

/-- All records are flushed when the flag says so. -/
theorem flushed
    (barrier : Barrier log events)
    (marked : log.unsynced = false) :
    Flushed events :=
  Trace.settled_iff.mpr (barrier.marked marked)

/-- The barrier goes by the flags. -/
theorem same
    (barrier : Barrier log events)
    (flags : SameFlags log later) :
    Barrier later events where
  mode := flags.mode.trans barrier.mode
  grouped := flags.groupCommit.trans barrier.grouped
  isOpen := flags.closed.trans barrier.isOpen
  active segment member :=
    (barrier.active segment member).trans flags.activePath.symm
  marked isMarked := barrier.marked (flags.unsynced.symm.trans isMarked)

/-- A flush of the active segment covers all records. -/
theorem fsynced
    (barrier : Barrier log events)
    (flags : SameFlags log later) :
    unflushed (events ++ [.fsynced log.activePath]) = [] ∧
      Barrier { later with unsynced := false }
        (events ++ [.fsynced log.activePath]) := by
  have covered : unflushed (events ++ [.fsynced log.activePath]) = [] := by
    rw [unflushed_fsynced, List.filter_eq_nil_iff]
    intro segment member
    simp [barrier.active segment member]
  refine ⟨covered, ?_⟩
  exact
    { mode := flags.mode.trans barrier.mode
      grouped := flags.groupCommit.trans barrier.grouped
      isOpen := flags.closed.trans barrier.isOpen
      active := by
        intro segment member
        rw [covered] at member
        cases member
      marked := fun _ => covered }

/-- A flush of another file leaves nothing to flush. -/
theorem fsyncedOther
    (nothing : unflushed events = [])
    (segment : Nat) :
    unflushed (events ++ [.fsynced segment]) = [] := by
  rw [unflushed_fsynced, nothing]
  rfl

/-- A record in the active segment waits, and the flag says so. -/
theorem appended
    (barrier : Barrier log events)
    (flags : SameFlags { log with unsynced := true } later)
    (lsn : Nat) :
    Barrier later (events ++ [.appended log.activePath lsn]) where
  mode := flags.mode.trans barrier.mode
  grouped := flags.groupCommit.trans barrier.grouped
  isOpen := flags.closed.trans barrier.isOpen
  active segment member := by
    rw [unflushed_appended, List.mem_append, List.mem_singleton] at member
    have sameActive : later.activePath = log.activePath := flags.activePath
    rcases member with member | isNew
    · exact (barrier.active segment member).trans sameActive.symm
    · exact isNew.trans sameActive.symm
  marked isMarked := by
    rw [flags.unsynced] at isMarked
    cases isMarked

/-- `fsyncActive` covers all records when it succeeds. -/
theorem fsyncActive_ok
    (barrier : Barrier log events)
    (flushes : log.fsyncActive = (later, .ok ())) :
    log.fsyncActiveEvents = [.fsynced log.activePath] ∧
      unflushed (events ++ [.fsynced log.activePath]) = [] ∧
      Barrier { later with unsynced := false }
        (events ++ [.fsynced log.activePath]) := by
  have flags := sameFlags_fsyncActive log
  rw [flushes] at flags
  refine ⟨?_, barrier.fsynced flags⟩
  unfold WriteAheadLog.fsyncActiveEvents
  rw [flushes]

/-- `fsyncActive` breaks the log when it fails. -/
theorem fsyncActive_error
    (barrier : Barrier log events)
    {error : LogError}
    (fails : log.fsyncActive = (later, .error error)) :
    log.fsyncActiveEvents = [] ∧ Barrier later events ∧
      later.broken = true ∧ later.unsynced = log.unsynced := by
  have flags := sameFlags_fsyncActive log
  rw [fails] at flags
  refine ⟨?_, barrier.same flags, ?_, flags.unsynced⟩
  · unfold WriteAheadLog.fsyncActiveEvents
    rw [fails]
  · unfold WriteAheadLog.fsyncActive at fails
    rcases isTaken : log.takeOutcome with ⟨_ | size | size, last⟩ <;>
      rw [isTaken] at fails <;> cases fails <;> rfl

/-- `commit` keeps the barrier; it clears the flag, or leaves it on a broken
log. -/
theorem commit
    (barrier : Barrier log events) :
    Barrier log.commit.1 (events ++ log.commitEvents) ∧
      (∀ value, log.commit.2 = .ok value → log.commit.1.unsynced = false) ∧
      ∀ error, log.commit.2 = .error error →
        log.commit.1.broken = true ∧ log.commit.1.unsynced = true := by
  have isOpen := barrier.isOpen
  unfold WriteAheadLog.commit WriteAheadLog.commitEvents
    WriteAheadLog.assertWritable
  cases marked : log.unsynced with
  | false =>
      simp only [Bool.not_false, Bool.true_or, ↓reduceIte, List.append_nil]
      exact ⟨barrier, fun _ _ => marked, fun _ isError => by cases isError⟩
  | true =>
      simp only [isOpen, Bool.not_true, Bool.or_self, Bool.false_eq_true,
        ↓reduceIte]
      cases isBroken : log.broken with
      | true =>
          simp only [↓reduceIte, List.append_nil]
          exact ⟨barrier, fun _ isOk => (by cases isOk),
            fun _ _ => ⟨isBroken, marked⟩⟩
      | false =>
          simp only [Bool.false_eq_true, ↓reduceIte]
          rcases result : log.fsyncActive with ⟨later, error | value⟩
          · rcases barrier.fsyncActive_error result with
              ⟨nothing, kept, breaks, same⟩
            rw [nothing, List.append_nil]
            exact ⟨kept, fun _ isOk => (by cases isOk),
              fun _ _ => ⟨breaks, same.trans marked⟩⟩
          · rcases barrier.fsyncActive_ok result with ⟨flush, -, kept⟩
            rw [flush]
            exact ⟨kept, fun _ _ => rfl, fun _ isError => by cases isError⟩

/-- `sync` keeps the barrier. -/
theorem sync
    (barrier : Barrier log events) :
    Barrier log.sync.1 (events ++ log.syncEvents) := by
  have flags := sameFlags_flush log
  unfold WriteAheadLog.sync WriteAheadLog.syncEvents
  revert flags
  generalize log.flush = flushed
  intro flags
  rcases flushed with ⟨next, error | value⟩
  · rw [List.append_nil]
    exact barrier.same flags
  · have kept := barrier.same flags
    dsimp only
    rcases result : next.fsyncActive with ⟨later, error | value⟩
    · rcases kept.fsyncActive_error result with ⟨nothing, kept, -⟩
      rw [nothing, List.append_nil]
      exact kept
    · rcases kept.fsyncActive_ok result with ⟨flush, -, kept⟩
      rw [flush]
      exact kept

/-- A log without unflushed records may go on in a new segment. -/
theorem switchSegment
    (barrier : Barrier log events)
    (nothing : unflushed events = []) :
    Barrier (log.switchSegment true).1
      (events ++ log.switchSegmentEvents true) := by
  have flags := sameFlags_createSegment log log.nextLsn true
  unfold WriteAheadLog.switchSegment WriteAheadLog.switchSegmentEvents
  revert flags
  generalize log.createSegment log.nextLsn true = created
  intro flags
  rcases created with ⟨later, error | value⟩
  · rw [List.append_nil]
    exact barrier.same flags
  · dsimp only
    rw [if_pos rfl]
    have still := fsyncedOther nothing log.nextLsn
    exact
      { mode := flags.mode.trans barrier.mode
        grouped := flags.groupCommit.trans barrier.grouped
        isOpen := flags.closed.trans barrier.isOpen
        active := by
          intro segment member
          rw [still] at member
          cases member
        marked := fun _ => still }

/-- `rotate` keeps the barrier. -/
theorem rotate
    (barrier : Barrier log events) :
    Barrier log.rotate.1 (events ++ log.rotateEvents) := by
  have flags := sameFlags_flush log
  have durable : (log.mode == .flushed) = true := by
    rw [barrier.mode]
    rfl
  unfold WriteAheadLog.rotate WriteAheadLog.rotateEvents
  rw [durable]
  revert flags
  generalize log.flush = flushed
  intro flags
  rcases flushed with ⟨next, error | value⟩
  · rw [List.append_nil]
    exact barrier.same flags
  · have kept := barrier.same flags
    simp only [↓reduceIte]
    rcases result : next.fsyncActive with ⟨later, error | value⟩
    · rcases kept.fsyncActive_error result with ⟨-, kept, -⟩
      rw [List.append_nil]
      exact kept
    · rcases kept.fsyncActive_ok result with ⟨-, covered, kept⟩
      have switched := kept.switchSegment covered
      rw [List.append_assoc] at switched
      exact switched

/-- `writeRecord` keeps the barrier: its record waits. -/
theorem writeRecord
    (barrier : Barrier log events)
    (lsn : Nat)
    (record : Bytes) :
    Barrier (log.writeRecord lsn record).1
      (events ++ log.writeRecordEvents lsn record) := by
  have flags :=
    sameFlags_writeFully log log.activePath record log.position
  unfold WriteAheadLog.writeRecord WriteAheadLog.writeRecordEvents
  revert flags
  generalize log.writeFully log.activePath record log.position = written
  intro flags
  rcases written with ⟨next, outcome⟩
  have kept := barrier.same flags
  cases outcome with
  | done =>
      dsimp only
      rw [if_pos kept.mode, if_pos kept.grouped, if_neg ?_]
      · have waits :=
          kept.appended
            (SameFlags.refl { next with unsynced := true }) lsn
        have sameActive : next.activePath = log.activePath :=
          flags.activePath
        rw [sameActive] at waits
        exact waits.same ⟨rfl, rfl, rfl, rfl, rfl⟩
      · rintro ⟨-, alone⟩
        exact Bool.noConfusion (kept.grouped.symm.trans alone)
  | diskFull size =>
      rw [List.append_nil]
      exact kept.same (sameFlags_abandonWrite next _ _)
  | failed size =>
      rw [List.append_nil]
      exact kept.same (sameFlags_abandonWrite next _ _)

/-- `append` keeps the barrier. -/
theorem append
    (barrier : Barrier log events)
    (type : Int)
    (payload : Bytes) :
    Barrier (log.append type payload).1
      (events ++ log.appendEvents type payload) := by
  unfold WriteAheadLog.append WriteAheadLog.appendEvents
  cases log.assertWritable with
  | error error =>
      rw [List.append_nil]
      exact barrier
  | ok value =>
      dsimp only
      cases encodeRecord log.nextLsn type payload with
      | error error =>
          rw [List.append_nil]
          exact barrier
      | ok record =>
          dsimp only
          by_cases rotates :
              segmentHeaderSize < log.position ∧
                log.segmentSizeBytes < log.position + record.length
          · have asBool :
                (decide (segmentHeaderSize < log.position) &&
                  decide (log.segmentSizeBytes <
                    log.position + record.length)) = true := by
              rw [Bool.and_eq_true, decide_eq_true_iff, decide_eq_true_iff]
              exact rotates
            have kept := barrier.rotate
            rw [if_pos rotates, if_pos asBool, if_pos asBool]
            revert kept
            generalize log.rotate = rotated
            intro kept
            rcases rotated with ⟨next, error | value⟩
            · exact kept
            · dsimp only
              rw [if_neg (by rw [kept.mode]; decide),
                if_neg (by rw [kept.mode]; decide), ← List.append_assoc]
              exact kept.writeRecord log.nextLsn record
          · have asBool :
                ¬ (decide (segmentHeaderSize < log.position) &&
                  decide (log.segmentSizeBytes <
                    log.position + record.length)) = true := by
              rw [Bool.and_eq_true, decide_eq_true_iff, decide_eq_true_iff]
              exact rotates
            rw [if_neg rotates, if_neg asBool, if_neg asBool]
            dsimp only
            rw [if_neg (by rw [barrier.mode]; decide),
              if_neg (by rw [barrier.mode]; decide), List.nil_append]
            exact barrier.writeRecord log.nextLsn record

/-- Every call keeps the barrier. -/
theorem call
    (barrier : Barrier log events)
    (call : LogCall) :
    Barrier (log.call call).1 (events ++ log.events call) := by
  cases call with
  | append type payload =>
      have kept := barrier.append type payload
      have same :
          (log.call (.append type payload)).1 =
            (log.append type payload).1 := by
        unfold WriteAheadLog.call
        dsimp only
        unfold acknowledge
        rcases log.append type payload with ⟨later, error | lsn⟩ <;> rfl
      rw [same]
      exact kept
  | flush =>
      exact (List.append_nil events).symm ▸
        barrier.same (sameFlags_flush log)
  | commit =>
      exact barrier.commit.1
  | sync =>
      exact barrier.sync
  | truncateThrough lsn =>
      exact (List.append_nil events).symm ▸
        barrier.same (sameFlags_truncateThrough log lsn)
  | records afterLsn =>
      exact (List.append_nil events).symm ▸
        barrier.same (sameFlags_records log afterLsn)

/-- Calls keep the barrier. -/
theorem calls
    (barrier : Barrier log events)
    (calls : List LogCall) :
    Barrier (log.calls calls) (events ++ log.eventsOf calls) := by
  induction calls generalizing log events with
  | nil =>
      exact (List.append_nil events).symm ▸ barrier
  | cons call rest inductionHypothesis =>
      have kept := inductionHypothesis (barrier.call call)
      rw [List.append_assoc] at kept
      exact kept

end Barrier

/-- A log with a new segment has the flags it was made with. -/
theorem sameFlags_of_created
    {fresh log : WriteAheadLog}
    {firstLsn : Nat}
    {durable : Bool}
    (creates :
      (match fresh.createSegment firstLsn durable with
        | (log, .ok ()) => Except.ok log
        | (_, .error error) => .error error) = .ok log) :
    SameFlags fresh log := by
  have flags := sameFlags_createSegment fresh firstLsn durable
  revert flags creates
  generalize fresh.createSegment firstLsn durable = created
  intro creates flags
  rcases created with ⟨later, error | value⟩
  · cases creates
  · cases creates
    exact flags

/-- A log that was opened with group commit has nothing to flush. -/
theorem barrier_of_openLog
    {options : WriteAheadLogOptions}
    {files : List SegmentFile}
    {outcomes : List IoOutcome}
    {log : WriteAheadLog}
    (opens : WriteAheadLog.openLog options files outcomes = .ok log)
    (mode : options.writeConcern.getD .flushed = .flushed)
    (grouped : options.groupCommit = some true) :
    Barrier log [] := by
  have settings :
      log.mode = .flushed ∧ log.groupCommit = true ∧
        log.closed = false := by
    unfold WriteAheadLog.openLog at opens
    rw [mode, grouped] at opens
    dsimp only at opens
    split_ifs at opens
    cases recovers : recoverSegments files with
    | error error =>
        rw [recovers] at opens
        cases opens
    | ok recovered =>
        rw [recovers] at opens
        dsimp only at opens
        cases isLast : recovered.segments.getLast? with
        | none =>
            rw [isLast] at opens
            have flags := sameFlags_of_created opens
            exact ⟨flags.mode, flags.groupCommit, flags.closed⟩
        | some last =>
            rw [isLast] at opens
            cases opens
            exact ⟨rfl, rfl, rfl⟩
  exact
    { mode := settings.1
      grouped := settings.2.1
      isOpen := settings.2.2
      active := fun segment member => by cases member
      marked := fun _ => rfl }

/-- Calls leave a broken log alone. -/
theorem calls_broken
    {log : WriteAheadLog}
    (isBroken : log.broken = true)
    (calls : List LogCall) :
    log.calls calls = log := by
  induction calls with
  | nil =>
      rfl
  | cons call rest inductionHypothesis =>
      unfold WriteAheadLog.calls
      rw [call_broken isBroken call]
      exact inductionHypothesis

end SinterDb.Wal
