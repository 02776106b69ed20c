import SinterDb.Wal.Recovery

namespace SinterDb.Wal

/-!
# Runs of a log

Calls of the log's methods in any order, with any outcomes of its writes, and
closing and opening it again in between.  `Acknowledges` is what every call
keeps as long as the log is not broken.
-/

/-- A call of one of the methods of a log. -/
inductive LogCall where
  | append (type : Int) (payload : Bytes)
  | flush
  | commit
  | sync
  | truncateThrough (lsn : Nat)
  | records (afterLsn : Nat)
  deriving Repr, DecidableEq

/-- The log after an `append`, with the record if it was acknowledged. -/
def acknowledge
    (type : Int)
    (payload : Bytes) :
    WriteAheadLog × Except LogError Nat → WriteAheadLog × List WalRecord
  | (appended, .ok lsn) => (appended, [⟨lsn, type.toNat, payload⟩])
  | (failed, .error _) => (failed, [])

/-- The log after a call, with the record that the call acknowledged. -/
def WriteAheadLog.call
    (log : WriteAheadLog) : LogCall → WriteAheadLog × List WalRecord
  | .append type payload => acknowledge type payload (log.append type payload)
  | .flush => (log.flush.1, [])
  | .commit => (log.commit.1, [])
  | .sync => (log.sync.1, [])
  | .truncateThrough lsn => ((log.truncateThrough lsn).1, [])
  | .records afterLsn => ((log.records afterLsn).1, [])

/--
The logs that calls can lead to from a new directory, with all records that
were acknowledged; closing a log that works and opening it again is a step of
such a run.  The outcomes that a log may meet are a parameter.
-/
inductive Reachable
    (allowed : List IoOutcome → Prop) :
    WriteAheadLog → List WalRecord → Prop where
  | fresh
      {options : WriteAheadLogOptions}
      {outcomes : List IoOutcome}
      {log : WriteAheadLog}
      (isAllowed : allowed outcomes)
      (opens : WriteAheadLog.openLog options [] outcomes = .ok log) :
      Reachable allowed log []
  | call
      {log : WriteAheadLog}
      {acknowledged : List WalRecord}
      (reachable : Reachable allowed log acknowledged)
      (call : LogCall) :
      Reachable allowed (log.call call).1
        (acknowledged ++ (log.call call).2)
  | reopen
      {log closed reopened : WriteAheadLog}
      {acknowledged : List WalRecord}
      {options : WriteAheadLogOptions}
      {outcomes : List IoOutcome}
      (reachable : Reachable allowed log acknowledged)
      (usable : log.broken = false)
      (closes : log.close = (closed, .ok ()))
      (isAllowed : allowed outcomes)
      (opens :
        WriteAheadLog.openLog options closed.files outcomes = .ok reopened) :
      Reachable allowed reopened acknowledged

/-- A log keeps exactly the acknowledged records, apart from the oldest ones
that compaction has removed. -/
structure Acknowledges
    (log : WriteAheadLog)
    (acknowledged gone : List WalRecord)
    (full : List Segment)
    (last : Segment)
    (queued : List WalRecord) : Prop where
  keeps : LogKeeps log (1 + gone.length) full last queued
  isAcknowledged : acknowledged = gone ++ heldRecords full last queued
  numbered : Contiguous 1 gone

namespace Acknowledges

variable
  {log : WriteAheadLog}
  {acknowledged gone : List WalRecord}
  {full : List Segment}
  {last : Segment}
  {queued : List WalRecord}

/-- The acknowledged records are numbered from one. -/
theorem contiguous
    (acknowledges : Acknowledges log acknowledged gone full last queued) :
    Contiguous 1 acknowledged := by
  rw [acknowledges.isAcknowledged]
  exact Contiguous.append_iff.mpr
    ⟨acknowledges.numbered, acknowledges.keeps.contiguous⟩

/-- The next number counts the acknowledged records. -/
theorem nextLsn
    (acknowledges : Acknowledges log acknowledged gone full last queued) :
    log.nextLsn = 1 + acknowledged.length := by
  rw [acknowledges.keeps.nextLsn_eq, acknowledges.isAcknowledged,
    List.length_append, Nat.add_assoc]

/-- Another layout of the same records. -/
theorem relay
    (acknowledges : Acknowledges log acknowledged gone full last queued)
    {log' : WriteAheadLog}
    {full' : List Segment}
    {last' : Segment}
    {queued' : List WalRecord}
    (keeps : LogKeeps log' (1 + gone.length) full' last' queued')
    (records :
      heldRecords full' last' queued' = heldRecords full last queued) :
    Acknowledges log' acknowledged gone full' last' queued' :=
  ⟨keeps, by rw [records, acknowledges.isAcknowledged],
    acknowledges.numbered⟩

end Acknowledges

/-- After a call the log keeps the acknowledged records, or a fault has broken
it. -/
def Continues
    (log : WriteAheadLog)
    (acknowledged : List WalRecord)
    (later : WriteAheadLog) : Prop :=
  (SameSettings log later ∧
      ∃ gone full last queued,
        Acknowledges later acknowledged gone full last queued) ∨
    log.outcomes ≠ [] ∧ later.broken = true

/-- Part of a chain is chained behind the records before it. -/
theorem Chained.right
    {first : Nat}
    {front rest : List Segment}
    (chained : Chained first (front ++ rest)) :
    Chained (first + (allRecords front).length) rest := by
  induction front generalizing first with
  | nil =>
      simpa [allRecords] using chained
  | cons segment front inductionHypothesis =>
      obtain ⟨starts, -, -, -, later⟩ := chained
      have restChained := inductionHypothesis later
      unfold Segment.nextLsn at restChained
      rw [starts] at restChained
      simpa [allRecords, Nat.add_assoc] using restChained

/-- Removing the first of several files whose names differ. -/
theorem unlink_first
    {files : List SegmentFile}
    {name : Nat}
    (others : ∀ file ∈ files, name < file.nameLsn)
    (contents : Bytes) :
    unlink (⟨name, contents⟩ :: files) name = files := by
  unfold unlink
  rw [List.filter_cons_of_neg (by simp), List.filter_eq_self]
  intro file member
  have larger := others file member
  simpa using Nat.ne_of_gt larger

/-- Compaction removes segments from the front, and only records that are not
above the given number. -/
theorem truncateLoop_chain
    (lsn : Nat)
    {first : Nat}
    {full : List Segment}
    {active : Segment}
    (chained : Chained first (full ++ [active]))
    (contents : Bytes) :
    ∃ gone kept,
      full = gone ++ kept ∧
        WriteAheadLog.truncateLoop lsn
            (full.map Segment.firstLsn ++ [active.firstLsn])
            (full.map Segment.file ++ [⟨active.firstLsn, contents⟩]) =
          (kept.map Segment.firstLsn ++ [active.firstLsn],
            kept.map Segment.file ++ [⟨active.firstLsn, contents⟩]) ∧
        ∀ record ∈ allRecords gone, record.lsn ≤ lsn := by
  induction full generalizing first with
  | nil =>
      exact ⟨[], [], rfl, rfl, by simp [allRecords]⟩
  | cons segment rest inductionHypothesis =>
      have above := chained.pairwise
      obtain ⟨starts, -, contiguous, -, restChained⟩ := chained
      have larger :
          ∀ file ∈ rest.map Segment.file ++ [⟨active.firstLsn, contents⟩],
            segment.firstLsn < file.nameLsn := by
        rw [List.cons_append, List.pairwise_cons] at above
        intro file member
        rcases List.mem_append.mp member with inRest | isActive
        · obtain ⟨other, inSegments, rfl⟩ := List.mem_map.mp inRest
          exact above.1 other (List.mem_append_left _ inSegments)
        · rw [List.mem_singleton.mp isActive]
          exact above.1 active (by simp)
      obtain ⟨next, others, isNext, follows⟩ :
          ∃ next others,
            rest.map Segment.firstLsn ++ [active.firstLsn] = next :: others ∧
              next = segment.nextLsn := by
        cases rest with
        | nil =>
            exact ⟨_, _, rfl, restChained.1⟩
        | cons other rest =>
            exact ⟨_, _, rfl, restChained.1⟩
      have loops :
          WriteAheadLog.truncateLoop lsn
              ((segment :: rest).map Segment.firstLsn ++ [active.firstLsn])
              ((segment :: rest).map Segment.file ++
                [⟨active.firstLsn, contents⟩]) =
            if lsn + 1 < next then
              ((segment :: rest).map Segment.firstLsn ++ [active.firstLsn],
                (segment :: rest).map Segment.file ++
                  [⟨active.firstLsn, contents⟩])
            else
              WriteAheadLog.truncateLoop lsn
                (rest.map Segment.firstLsn ++ [active.firstLsn])
                (rest.map Segment.file ++ [⟨active.firstLsn, contents⟩]) := by
        rw [List.map_cons, List.map_cons, List.cons_append, List.cons_append,
          isNext, WriteAheadLog.truncateLoop, Segment.file,
          unlink_first larger]
      rw [loops]
      split
      · exact ⟨[], segment :: rest, rfl, rfl, by simp [allRecords]⟩
      · rename_i due
        obtain ⟨gone, kept, isRest, truncates, old⟩ :=
          inductionHypothesis restChained
        refine ⟨segment :: gone, kept, by rw [isRest]; rfl, truncates, ?_⟩
        intro record member
        simp only [allRecords, List.flatMap_cons, List.mem_append] at member
        rcases member with inSegment | inGone
        · have bounds := contiguous.bounds record inSegment
          unfold Segment.nextLsn at follows
          omega
        · exact old record inGone

section Calls

variable
  {log : WriteAheadLog}
  {first : Nat}
  {acknowledged gone : List WalRecord}
  {full : List Segment}
  {last : Segment}
  {queued : List WalRecord}

/-- Records are held in the same order when the queue is written. -/
theorem heldRecords_flushed
    (full : List Segment)
    (last : Segment)
    (queued : List WalRecord) :
    heldRecords full ⟨last.firstLsn, last.records ++ queued⟩ [] =
      heldRecords full last queued := by
  simp [heldRecords]

/-- `append` keeps the acknowledged records and adds its own. -/
theorem continues_append
    (acknowledges : Acknowledges log acknowledged gone full last queued)
    (type : Int)
    (payload : Bytes) :
    Continues log
      (acknowledged ++
        (acknowledge type payload (log.append type payload)).2)
      (acknowledge type payload (log.append type payload)).1 := by
  cases encodes : encodeRecord log.nextLsn type payload with
  | error error =>
      rw [acknowledges.keeps.append_rejected encodes]
      exact .inl ⟨.refl log, gone, full, last, queued,
        by simpa [acknowledge] using acknowledges⟩
  | ok encoded =>
      have appends := acknowledges.keeps.append encodes
      revert appends
      generalize log.append type payload = result
      intro appends
      cases appends with
      | done isDone =>
          obtain ⟨rfl, full', last', queued', keeps, records, same⟩ := isDone
          refine .inl ⟨same, gone, full', last', queued', keeps, ?_,
            acknowledges.numbered⟩
          rw [records, acknowledges.isAcknowledged, List.append_assoc]
          rfl
      | refused isFault isRefused =>
          obtain ⟨full', last', queued', keeps, records, same⟩ := isRefused
          refine .inl ⟨same, gone, full', last', queued', ?_⟩
          simpa [acknowledge] using acknowledges.relay keeps records
      | broken isFault isBroken =>
          exact .inr ⟨isFault, isBroken⟩

/-- `flush` keeps the acknowledged records. -/
theorem continues_flush
    (acknowledges : Acknowledges log acknowledged gone full last queued) :
    Continues log acknowledged log.flush.1 := by
  have flushes := acknowledges.keeps.flush
  revert flushes
  generalize log.flush = result
  intro flushes
  cases flushes with
  | done isDone =>
      obtain ⟨keeps, same, -⟩ := isDone
      exact .inl ⟨same, gone, full, _, [],
        acknowledges.relay keeps (heldRecords_flushed full last queued)⟩
  | refused isFault isRefused =>
      subst isRefused
      exact .inl ⟨LogKeeps.sameSettings_used log log.unsynced, gone, full,
        last, queued,
        acknowledges.relay (acknowledges.keeps.used _ log.unsynced) rfl⟩
  | broken isFault isBroken =>
      exact .inr ⟨isFault, isBroken⟩

/-- Flushing to stable storage keeps the acknowledged records. -/
theorem continues_fsync
    (acknowledges : Acknowledges log acknowledged gone full last queued)
    {result : WriteAheadLog × Except LogError Unit}
    (syncs : log.fsyncActive = result) :
    Continues log acknowledged
      (match result with
      | (log, .ok ()) =>
          (({ log with unsynced := false }, .ok ()) :
            WriteAheadLog × Except LogError Unit)
      | (log, .error error) => (log, .error error)).1 := by
  have ends := LogKeeps.fsyncActive log
  rw [syncs] at ends
  cases ends with
  | done isDone =>
      subst isDone
      exact .inl ⟨LogKeeps.sameSettings_used log false, gone, full, last,
        queued, acknowledges.relay (acknowledges.keeps.used _ false) rfl⟩
  | refused isFault isRefused =>
      exact isRefused.elim
  | broken isFault isBroken =>
      exact .inr ⟨isFault, isBroken⟩

/-- `commit` keeps the acknowledged records. -/
theorem continues_commit
    (acknowledges : Acknowledges log acknowledged gone full last queued) :
    Continues log acknowledged log.commit.1 := by
  unfold WriteAheadLog.commit
  split
  · exact .inl ⟨.refl log, gone, full, last, queued, acknowledges⟩
  · rw [acknowledges.keeps.assertWritable]
    exact continues_fsync acknowledges rfl

/-- `sync` keeps the acknowledged records. -/
theorem continues_sync
    (acknowledges : Acknowledges log acknowledged gone full last queued) :
    Continues log acknowledged log.sync.1 := by
  have flushes := acknowledges.keeps.flush
  have continues := continues_flush acknowledges
  unfold WriteAheadLog.sync
  revert flushes continues
  generalize log.flush = result
  intro flushes continues
  cases flushes with
  | done isDone =>
      obtain ⟨keeps, same, -⟩ := isDone
      have synced :=
        continues_fsync
          (acknowledges.relay keeps (heldRecords_flushed full last queued))
          rfl
      rcases synced with ⟨sameLater, later⟩ | ⟨isFault, isBroken⟩
      · exact .inl ⟨same.trans sameLater, later⟩
      · exact .inr ⟨same.faultless isFault, isBroken⟩
  | refused isFault isRefused =>
      exact continues
  | broken isFault isBroken =>
      exact continues

/-- `records` keeps the acknowledged records. -/
theorem continues_records
    (acknowledges : Acknowledges log acknowledged gone full last queued)
    (afterLsn : Nat) :
    Continues log acknowledged (log.records afterLsn).1 := by
  have continues := continues_flush acknowledges
  unfold WriteAheadLog.records WriteAheadLog.assertOpen
  simp only [acknowledges.keeps.usable.1, acknowledges.keeps.usable.2,
    Bool.false_eq_true, if_false]
  revert continues
  generalize log.flush = result
  intro continues
  obtain ⟨flushed, error | value⟩ := result
  · exact continues
  · exact continues

/-- `truncateThrough` keeps the segments that are not old, and the active
one. -/
theorem truncateThrough_keeps
    (keeps : LogKeeps log (1 + gone.length) full last queued)
    (lsn : Nat) :
    ∃ removed kept,
      full = removed ++ kept ∧
        log.truncateThrough lsn =
          ({ log with
              segments := kept.map Segment.firstLsn ++ [last.firstLsn]
              files := kept.map Segment.file ++ [last.file] },
            .ok removed.length) ∧
        LogKeeps (log.truncateThrough lsn).1
          (1 + (gone ++ allRecords removed).length) kept last queued ∧
        ∀ record ∈ allRecords removed, record.lsn ≤ lsn := by
  obtain ⟨removed, kept, rfl, truncates, old⟩ :=
    truncateLoop_chain lsn keeps.chained last.bytes
  have truncated :
      log.truncateThrough lsn =
        ({ log with
            segments := kept.map Segment.firstLsn ++ [last.firstLsn]
            files := kept.map Segment.file ++ [last.file] },
          .ok removed.length) := by
    unfold WriteAheadLog.truncateThrough
    rw [keeps.assertWritable]
    simp only [keeps.segments, keeps.files, Segment.file] at truncates ⊢
    simp only [truncates]
    simp
  refine ⟨removed, kept, rfl, truncated, ?_, old⟩
  have chained := keeps.chained
  rw [List.append_assoc] at chained
  rw [truncated]
  refine ⟨rfl, rfl, ?_, by omega, keeps.position, keeps.nextLsn, keeps.pending,
    keeps.pendingBytes, keeps.queuedInMemory, keeps.usable⟩
  simpa [Nat.add_assoc] using chained.right

/-- `truncateThrough` keeps the acknowledged records that it does not
remove. -/
theorem continues_truncateThrough
    (acknowledges : Acknowledges log acknowledged gone full last queued)
    (lsn : Nat) :
    Continues log acknowledged (log.truncateThrough lsn).1 := by
  obtain ⟨removed, kept, rfl, truncates, keeps, -⟩ :=
    truncateThrough_keeps acknowledges.keeps lsn
  refine .inl ⟨?_, gone ++ allRecords removed, kept, last, queued, keeps, ?_,
    ?_⟩
  · rw [truncates]
    exact ⟨rfl, rfl, rfl, List.suffix_refl _⟩
  · rw [acknowledges.isAcknowledged]
    simp [heldRecords]
  · have contiguous := acknowledges.keeps.contiguous
    unfold heldRecords at contiguous
    rw [allRecords_append, List.append_assoc, List.append_assoc] at contiguous
    exact Contiguous.append_iff.mpr
      ⟨acknowledges.numbered, (Contiguous.append_iff.mp contiguous).1⟩

/-- Every call keeps the acknowledged records. -/
theorem continues_call
    (acknowledges : Acknowledges log acknowledged gone full last queued)
    (call : LogCall) :
    Continues log (acknowledged ++ (log.call call).2) (log.call call).1 := by
  cases call with
  | append type payload =>
      exact continues_append acknowledges type payload
  | flush =>
      simpa [WriteAheadLog.call] using continues_flush acknowledges
  | commit =>
      simpa [WriteAheadLog.call] using continues_commit acknowledges
  | sync =>
      simpa [WriteAheadLog.call] using continues_sync acknowledges
  | truncateThrough lsn =>
      simpa [WriteAheadLog.call] using continues_truncateThrough acknowledges lsn
  | records afterLsn =>
      simpa [WriteAheadLog.call] using continues_records acknowledges afterLsn

/-- A broken log does nothing any more. -/
theorem call_broken
    (isBroken : log.broken = true)
    (call : LogCall) :
    log.call call = (log, []) := by
  have notWritable : ∃ error, log.assertWritable = .error error := by
    unfold WriteAheadLog.assertWritable
    simp only [isBroken, if_true]
    split_ifs <;> exact ⟨_, rfl⟩
  obtain ⟨error, refuses⟩ := notWritable
  cases call with
  | append type payload =>
      simp [WriteAheadLog.call, WriteAheadLog.append, refuses, acknowledge]
  | flush =>
      simp [WriteAheadLog.call, WriteAheadLog.flush, refuses]
  | commit =>
      simp only [WriteAheadLog.call, WriteAheadLog.commit, refuses]
      split_ifs <;> rfl
  | sync =>
      simp [WriteAheadLog.call, WriteAheadLog.sync, WriteAheadLog.flush,
        refuses]
  | truncateThrough lsn =>
      simp [WriteAheadLog.call, WriteAheadLog.truncateThrough, refuses]
  | records afterLsn =>
      simp only [WriteAheadLog.call, WriteAheadLog.records, isBroken]
      cases log.assertOpen <;> rfl

/-- `commit` changes no file. -/
theorem files_commit
    (log : WriteAheadLog) :
    log.commit.1.files = log.files := by
  have ends := LogKeeps.fsyncActive log
  unfold WriteAheadLog.commit
  split
  · rfl
  · cases log.assertWritable with
    | error error =>
        rfl
    | ok value =>
        simp only [WriteAheadLog.fsyncActive, takeOutcome_eq]
        cases log.outcomes.headD .done <;> rfl

/-- A log that closes without an error has written all of its records. -/
theorem files_close
    (keeps : LogKeeps log first full last queued)
    {closed : WriteAheadLog}
    (closes : log.close = (closed, .ok ())) :
    closed.files =
      full.map Segment.file ++
        [Segment.file ⟨last.firstLsn, last.records ++ queued⟩] := by
  have flushes := keeps.flush
  unfold WriteAheadLog.close at closes
  simp only [keeps.usable.1, keeps.usable.2, Bool.false_eq_true,
    if_false] at closes
  revert flushes closes
  generalize log.flush = result
  intro flushes closes
  cases flushes with
  | @done flushed value isDone =>
      obtain ⟨flushedKeeps, -⟩ := isDone
      have isClosed := congrArg (fun result => result.1.files) closes
      rw [← flushedKeeps.files, ← files_commit flushed]
      exact isClosed.symm
  | refused isFault isRefused =>
      cases (congrArg Prod.snd closes : Except.error _ = Except.ok ())
  | broken isFault isBroken =>
      cases (congrArg Prod.snd closes : Except.error _ = Except.ok ())

/-- A log that is opened again keeps what was written. -/
theorem openLog_reopened
    {options : WriteAheadLogOptions}
    (accepted : options.Accepted)
    (keeps : LogKeeps log first full last queued)
    {closed : WriteAheadLog}
    (closes : log.close = (closed, .ok ()))
    (outcomes : List IoOutcome) :
    ∃ reopened,
      WriteAheadLog.openLog options closed.files outcomes = .ok reopened ∧
        reopened.outcomes = outcomes ∧
        LogKeeps reopened first full
          ⟨last.firstLsn, last.records ++ queued⟩ [] := by
  obtain ⟨reopened, opens, isOutcomes, reopenedKeeps⟩ :=
    openLog_keeps accepted keeps.positive keeps.chained []
      (.inl (by simpa using scanRecord_atEnd _ _)) outcomes
  refine ⟨reopened, ?_, isOutcomes, reopenedKeeps⟩
  rw [files_close keeps closes, Segment.file]
  simpa using opens

end Calls

namespace Reachable

variable
  {allowed : List IoOutcome → Prop}
  {log : WriteAheadLog}
  {acknowledged : List WalRecord}

/-- A reachable log keeps exactly the acknowledged records, as long as it is
not broken. -/
theorem acknowledges
    (reachable : Reachable allowed log acknowledged) :
    log.broken = true ∨
      ∃ gone full last queued,
        Acknowledges log acknowledged gone full last queued := by
  induction reachable with
  | fresh isAllowed opens =>
      exact .inr ⟨[], [], ⟨1, []⟩, [], (keeps_of_openLog_empty opens).1, rfl,
        trivial⟩
  | @call log acknowledged reachable call inductionHypothesis =>
      rcases inductionHypothesis with isBroken |
        ⟨gone, full, last, queued, acknowledges⟩
      · rw [call_broken isBroken call]
        exact .inl isBroken
      · rcases continues_call acknowledges call with ⟨-, later⟩ |
          ⟨-, isBroken⟩
        · exact .inr later
        · exact .inl isBroken
  | @reopen log closed reopened acknowledged options outcomes reachable usable
      closes isAllowed opens inductionHypothesis =>
      rcases inductionHypothesis with isBroken |
        ⟨gone, full, last, queued, acknowledges⟩
      · rw [usable] at isBroken
        cases isBroken
      · obtain ⟨again, opensAgain, -, keeps⟩ :=
          openLog_reopened (accepted_of_openLog opens) acknowledges.keeps
            closes outcomes
        rw [opens] at opensAgain
        obtain rfl := Except.ok.inj opensAgain
        exact .inr ⟨gone, full, _, [], acknowledges.relay keeps
          (heldRecords_flushed full last queued)⟩

/-- A reachable log that met no faults keeps the acknowledged records. -/
theorem acknowledges_of_faultless
    (reachable : Reachable (· = []) log acknowledged) :
    log.outcomes = [] ∧
      ∃ gone full last queued,
        Acknowledges log acknowledged gone full last queued := by
  induction reachable with
  | fresh isAllowed opens =>
      obtain ⟨keeps, used⟩ := keeps_of_openLog_empty opens
      rw [isAllowed] at used
      exact ⟨List.suffix_nil.mp used, [], [], ⟨1, []⟩, [], keeps, rfl,
        trivial⟩
  | @call log acknowledged reachable call inductionHypothesis =>
      obtain ⟨none, gone, full, last, queued, acknowledges⟩ :=
        inductionHypothesis
      rcases continues_call acknowledges call with ⟨same, later⟩ |
        ⟨isFault, -⟩
      · refine ⟨?_, later⟩
        by_contra faults
        exact same.faultless faults none
      · exact absurd none isFault
  | @reopen log closed reopened acknowledged options outcomes reachable usable
      closes isAllowed opens inductionHypothesis =>
      obtain ⟨-, gone, full, last, queued, acknowledges⟩ :=
        inductionHypothesis
      obtain ⟨again, opensAgain, isOutcomes, keeps⟩ :=
        openLog_reopened (accepted_of_openLog opens) acknowledges.keeps
          closes outcomes
      rw [opens] at opensAgain
      obtain rfl := Except.ok.inj opensAgain
      exact ⟨isOutcomes.trans isAllowed, gone, full, _, [],
        acknowledges.relay keeps (heldRecords_flushed full last queued)⟩

end Reachable

end SinterDb.Wal
