import SinterDb.Wal.LogInvariant

namespace SinterDb.Wal

/-!
# The history that a log remembers

What a user of a log relies on: the log holds all records that were
acknowledged behind the ones that compaction has removed, however its segments
are laid out.
-/

/-- A log remembers records, of which the oldest ones are gone. -/
def Remembers
    (log : WriteAheadLog)
    (acknowledged : List WalRecord)
    (gone : Nat) : Prop :=
  ∃ removed full last queued, removed.length = gone ∧
    Acknowledges log acknowledged removed full last queued

/-- A log that was just opened remembers records in its files. -/
def RemembersInFiles
    (log : WriteAheadLog)
    (acknowledged : List WalRecord)
    (gone : Nat) : Prop :=
  ∃ removed full last, removed.length = gone ∧
    Acknowledges log acknowledged removed full last []

/-- A call breaks a log, or the log remembers the same records. -/
def StaysOrBreaks
    (acknowledged : List WalRecord)
    (gone : Nat)
    (later : WriteAheadLog) : Prop :=
  later.broken = true ∨ Remembers later acknowledged gone

namespace RemembersInFiles

variable
  {log : WriteAheadLog}
  {acknowledged : List WalRecord}
  {gone : Nat}

/-- What is in the files is remembered. -/
theorem remembers
    (inFiles : RemembersInFiles log acknowledged gone) :
    Remembers log acknowledged gone := by
  rcases inFiles with ⟨removed, full, last, isGone, acknowledges⟩
  exact ⟨removed, full, last, [], isGone, acknowledges⟩

/-- Records of which not more than the removed ones are left out. -/
theorem filter_eq_drop
    {first : Nat}
    {records : List WalRecord}
    (contiguous : Contiguous first records)
    {afterLsn : Nat}
    (ahead : first ≤ afterLsn + 1) :
    records.filter (fun record => afterLsn < record.lsn) =
      records.drop (afterLsn + 1 - first) := by
  induction records generalizing first with
  | nil =>
      simp
  | cons record rest inductionHypothesis =>
      rcases contiguous with ⟨isFirst, -, later⟩
      by_cases behind : afterLsn < record.lsn
      · have isZero : afterLsn + 1 - first = 0 := by
          rw [isFirst] at behind
          exact Nat.sub_eq_zero_of_le behind
        have all : ∀ other ∈ rest, afterLsn < other.lsn := by
          intro other member
          have bounds := later.bounds other member
          rw [isFirst] at behind
          exact behind.trans_le ((Nat.le_succ _).trans bounds.1)
        rw [isZero, List.drop_zero, List.filter_eq_self]
        intro other member
        rcases List.mem_cons.mp member with rfl | inRest
        · exact decide_eq_true behind
        · exact decide_eq_true (all other inRest)
      · have nextAhead : first + 1 ≤ afterLsn + 1 := by
          rw [isFirst] at behind
          exact Nat.succ_le_succ (Nat.le_of_not_lt behind)
        have oneMore :
            afterLsn + 1 - first = (afterLsn + 1 - (first + 1)) + 1 := by
          omega
        rw [List.filter_cons_of_neg (by simpa using behind),
          inductionHypothesis later nextAhead, oneMore, List.drop_succ_cons]

/-- A log that was just opened reads the records behind a snapshot. -/
theorem records
    (inFiles : RemembersInFiles log acknowledged gone)
    {afterLsn : Nat}
    (covers : gone ≤ afterLsn) :
    log.records afterLsn = (log, .ok (acknowledged.drop afterLsn)) := by
  rcases inFiles with ⟨removed, full, last, isGone, acknowledges⟩
  have keeps := acknowledges.keeps
  have idle : log.flush = (log, .ok ()) := by
    unfold WriteAheadLog.flush
    rw [keeps.assertWritable]
    have nothing : log.pendingBytes = 0 := keeps.pendingBytes
    simp only [nothing, if_true]
  have sameLast :
      (⟨last.firstLsn, last.records ++ []⟩ : Segment) = last := by
    rw [List.append_nil]
  have chained : Chained (1 + removed.length) (full ++ [last]) := by
    have whole := keeps.chained
    rw [sameLast] at whole
    exact whole
  have reads :
      WriteAheadLog.recordsLoop log.files afterLsn log.segments =
        .ok ((allRecords (full ++ [last])).filter
          fun record => afterLsn < record.lsn) := by
    have names : log.segments = (full ++ [last]).map Segment.firstLsn := by
      rw [keeps.segments]
      simp
    have files : log.files = (full ++ [last]).map Segment.file := by
      rw [keeps.files]
      simp
    rw [names]
    refine recordsLoop_chain afterLsn chained fun segment member => ?_
    rw [files]
    exact readSegment_chain chained member
  have held :
      (allRecords (full ++ [last])).filter
          (fun record => afterLsn < record.lsn) =
        acknowledged.drop afterLsn := by
    rw [filter_eq_drop chained.contiguous (by omega),
      acknowledges.isAcknowledged]
    have split :
        afterLsn = removed.length + (afterLsn + 1 - (1 + removed.length)) := by
      omega
    conv_rhs => rw [split]
    rw [← List.drop_drop, List.drop_left]
    simp [heldRecords, allRecords]
  unfold WriteAheadLog.records WriteAheadLog.assertOpen
  simp only [keeps.usable.1, keeps.usable.2, Bool.false_eq_true, if_false,
    idle, reads, held]

end RemembersInFiles

namespace Remembers

variable
  {log : WriteAheadLog}
  {acknowledged : List WalRecord}
  {gone : Nat}

/-- A log that remembers works. -/
theorem usable
    (remembers : Remembers log acknowledged gone) :
    log.broken = false ∧ log.closed = false := by
  rcases remembers with ⟨_, _, _, _, -, acknowledges⟩
  exact acknowledges.keeps.usable

/-- The last number counts the records. -/
theorem lastLsn
    (remembers : Remembers log acknowledged gone) :
    log.lastLsn = acknowledged.length := by
  rcases remembers with ⟨_, _, _, _, -, acknowledges⟩
  unfold WriteAheadLog.lastLsn
  rw [acknowledges.nextLsn]
  omega

/-- The first number is behind the records that are gone. -/
theorem firstLsn
    (remembers : Remembers log acknowledged gone) :
    log.firstLsn = 1 + gone := by
  rcases remembers with ⟨_, _, _, _, isGone, acknowledges⟩
  rw [acknowledges.keeps.firstLsn, isGone]

/-- Only records that were acknowledged are gone. -/
theorem gone_le
    (remembers : Remembers log acknowledged gone) :
    gone ≤ acknowledged.length := by
  rcases remembers with ⟨removed, _, _, _, isGone, acknowledges⟩
  rw [acknowledges.isAcknowledged, List.length_append, isGone]
  exact Nat.le_add_right _ _

/-- A record that is appended is remembered. -/
theorem append_ok
    (remembers : Remembers log acknowledged gone)
    {type : Int}
    {payload : Bytes}
    {lsn : Nat}
    {later : WriteAheadLog}
    (appends : log.append type payload = (later, .ok lsn)) :
    Remembers later (acknowledged ++ [⟨lsn, type.toNat, payload⟩]) gone := by
  rcases remembers with ⟨removed, full, last, queued, isGone, acknowledges⟩
  cases encodes : encodeRecord log.nextLsn type payload with
  | error error =>
      rw [acknowledges.keeps.append_rejected encodes] at appends
      cases congrArg Prod.snd appends
  | ok encoded =>
      have ends := acknowledges.keeps.append encodes
      rw [appends] at ends
      cases ends with
      | done isDone =>
          rcases isDone with ⟨rfl, full', last', queued', keeps, records, -⟩
          refine ⟨removed, full', last', queued', isGone, keeps, ?_,
            acknowledges.numbered⟩
          rw [records, acknowledges.isAcknowledged, List.append_assoc]

/-- A record that is refused leaves no trace, unless the log is broken. -/
theorem append_error
    (remembers : Remembers log acknowledged gone)
    {type : Int}
    {payload : Bytes}
    {error : LogError}
    {later : WriteAheadLog}
    (refuses : log.append type payload = (later, .error error)) :
    StaysOrBreaks acknowledged gone later := by
  rcases remembers with ⟨removed, full, last, queued, isGone, acknowledges⟩
  cases encodes : encodeRecord log.nextLsn type payload with
  | error reason =>
      rw [acknowledges.keeps.append_rejected encodes] at refuses
      have same : log = later := congrArg Prod.fst refuses
      rw [← same]
      exact .inr ⟨removed, full, last, queued, isGone, acknowledges⟩
  | ok encoded =>
      have ends := acknowledges.keeps.append encodes
      rw [refuses] at ends
      cases ends with
      | refused _ isRefused =>
          rcases isRefused with ⟨full', last', queued', keeps, records, -⟩
          exact .inr ⟨removed, full', last', queued', isGone,
            acknowledges.relay keeps records⟩
      | broken _ isBroken =>
          exact .inl isBroken

/-- Writing the queue forgets nothing. -/
theorem flush
    (remembers : Remembers log acknowledged gone) :
    StaysOrBreaks acknowledged gone log.flush.1 := by
  rcases remembers with ⟨removed, full, last, queued, isGone, acknowledges⟩
  have flushes := acknowledges.keeps.flush
  revert flushes
  generalize log.flush = result
  intro flushes
  cases flushes with
  | done isDone =>
      rcases isDone with ⟨keeps, -⟩
      exact .inr ⟨removed, full, _, [], isGone,
        acknowledges.relay keeps (heldRecords_flushed full last queued)⟩
  | refused _ isRefused =>
      subst isRefused
      exact .inr ⟨removed, full, last, queued, isGone,
        acknowledges.relay (acknowledges.keeps.used _ log.unsynced) rfl⟩
  | broken _ isBroken =>
      exact .inl isBroken

/-- Flushing to stable storage forgets nothing. -/
theorem fsync
    (remembers : Remembers log acknowledged gone)
    {result : WriteAheadLog × Except LogError Unit}
    (syncs : log.fsyncActive = result) :
    StaysOrBreaks acknowledged gone
      (match result with
      | (log, .ok ()) =>
          (({ log with unsynced := false }, .ok ()) :
            WriteAheadLog × Except LogError Unit)
      | (log, .error error) => (log, .error error)).1 := by
  rcases remembers with ⟨removed, full, last, queued, isGone, acknowledges⟩
  have ends := LogKeeps.fsyncActive log
  rw [syncs] at ends
  cases ends with
  | done isDone =>
      subst isDone
      exact .inr ⟨removed, full, last, queued, isGone,
        acknowledges.relay (acknowledges.keeps.used _ false) rfl⟩
  | refused _ isRefused =>
      exact isRefused.elim
  | broken _ isBroken =>
      exact .inl isBroken

/-- `commit` forgets nothing. -/
theorem commit
    (remembers : Remembers log acknowledged gone) :
    StaysOrBreaks acknowledged gone log.commit.1 := by
  have writable : log.assertWritable = .ok () := by
    rcases remembers with ⟨_, _, _, _, -, acknowledges⟩
    exact acknowledges.keeps.assertWritable
  unfold WriteAheadLog.commit
  split
  · exact .inr remembers
  · rw [writable]
    exact remembers.fsync rfl

/-- `sync` forgets nothing. -/
theorem sync
    (remembers : Remembers log acknowledged gone) :
    StaysOrBreaks acknowledged gone log.sync.1 := by
  have flushed := remembers.flush
  unfold WriteAheadLog.sync
  revert flushed
  generalize log.flush = result
  rintro (isBroken | later)
  · rcases result with ⟨flushed, error | value⟩
    · exact .inl isBroken
    · have synced : flushed.fsyncActive.1.broken = true := by
        unfold WriteAheadLog.fsyncActive
        rw [takeOutcome_eq]
        dsimp only
        split
        · exact isBroken
        · rfl
      dsimp only
      revert synced
      generalize flushed.fsyncActive = last
      intro synced
      rcases last with ⟨final, error | value⟩
      · exact .inl synced
      · exact .inl synced
  · rcases result with ⟨flushed, error | value⟩
    · exact .inr later
    · exact later.fsync rfl

/-- Compaction removes records up to the given one. -/
theorem truncateThrough
    (remembers : Remembers log acknowledged gone)
    (lsn : Nat) :
    ∃ removedSegments later,
      (log.truncateThrough lsn).2 = .ok removedSegments ∧
        Remembers (log.truncateThrough lsn).1 acknowledged later ∧
        gone ≤ later ∧ (later = gone ∨ later ≤ lsn) := by
  rcases remembers with ⟨removed, full, last, queued, isGone, acknowledges⟩
  rcases truncateThrough_keeps acknowledges.keeps lsn with
    ⟨old, kept, rfl, truncates, keeps, isOld⟩
  have contiguous := acknowledges.keeps.contiguous
  unfold heldRecords at contiguous
  rw [allRecords_append, List.append_assoc, List.append_assoc] at contiguous
  have oldContiguous := (Contiguous.append_iff.mp contiguous).1
  refine ⟨old.length, (removed ++ allRecords old).length,
    congrArg Prod.snd truncates,
    ⟨removed ++ allRecords old, kept, last, queued, rfl, keeps, ?_,
      Contiguous.append_iff.mpr ⟨acknowledges.numbered, oldContiguous⟩⟩,
    ?_, ?_⟩
  · rw [acknowledges.isAcknowledged]
    simp [heldRecords]
  · rw [List.length_append, isGone]
    exact Nat.le_add_right _ _
  · rcases List.eq_nil_or_concat (allRecords old) with
      nothing | ⟨front, final, isAll⟩
    · rw [nothing, List.append_nil]
      exact .inl isGone
    · -- The number of the last removed record counts the removed ones.
      right
      have isLast : final.lsn = 1 + removed.length + front.length := by
        rw [isAll, List.concat_eq_append] at oldContiguous
        exact (Contiguous.append_iff.mp oldContiguous).2.1
      have notAbove : final.lsn ≤ lsn := by
        refine isOld final ?_
        rw [isAll]
        simp
      rw [List.length_append, isAll, List.length_concat]
      omega

/-- A log that closes without an error is opened with the same records. -/
theorem reopened
    (remembers : Remembers log acknowledged gone)
    {options : WriteAheadLogOptions}
    (accepted : options.Accepted)
    {closed : WriteAheadLog}
    (closes : log.close = (closed, .ok ()))
    (outcomes : List IoOutcome) :
    ∃ reopened,
      WriteAheadLog.openLog options closed.files outcomes = .ok reopened ∧
        RemembersInFiles reopened acknowledged gone := by
  rcases remembers with ⟨removed, full, last, queued, isGone, acknowledges⟩
  rcases openLog_reopened accepted acknowledges.keeps closes outcomes with
    ⟨reopened, opens, -, keeps⟩
  exact ⟨reopened, opens, removed, full, _, isGone,
    acknowledges.relay keeps (heldRecords_flushed full last queued)⟩

/-- Bytes of a write that was under way at the end of the active segment. -/
def TornTail (log : WriteAheadLog) (tail : Bytes) : Prop :=
  ∀ contents, readSegment log.files log.activePath = some contents →
    scanRecord (contents ++ tail) contents.length log.nextLsn = .atEnd ∨
      ∃ reason,
        scanRecord (contents ++ tail) contents.length log.nextLsn =
          .torn reason

/-- A log that writes every record at once is opened with the same records
after it was left in the middle of a write. -/
theorem killed
    (remembers : Remembers log acknowledged gone)
    (writesAtOnce : log.mode ≠ .memory)
    {tail : Bytes}
    (torn : TornTail log tail)
    {options : WriteAheadLogOptions}
    (accepted : options.Accepted)
    (outcomes : List IoOutcome) :
    ∃ reopened,
      WriteAheadLog.openLog options
          (changeFile log.files log.activePath fun contents =>
            contents ++ tail)
          outcomes = .ok reopened ∧
        RemembersInFiles reopened acknowledged gone := by
  rcases remembers with ⟨removed, full, last, queued, isGone, acknowledges⟩
  have keeps := acknowledges.keeps
  have nothingQueued : queued = [] := keeps.queuedInMemory writesAtOnce
  subst nothingQueued
  have chained := keeps.chained
  rw [List.append_nil] at chained
  have files : log.files = (full ++ [last]).map Segment.file := by
    rw [keeps.files]
    simp
  have isActive :
      readSegment log.files log.activePath = some last.bytes := by
    rw [files, keeps.activePath]
    exact readSegment_chain chained (by simp)
  have stopped := torn last.bytes isActive
  rw [keeps.nextLsn, List.length_nil, Nat.add_zero] at stopped
  rcases openLog_keeps accepted keeps.positive chained tail stopped
      outcomes with
    ⟨reopened, opens, -, reopenedKeeps⟩
  refine ⟨reopened, ?_, removed, full, last, isGone,
    acknowledges.relay reopenedKeeps rfl⟩
  rw [keeps.files, keeps.activePath, Segment.file,
    changeFile_last chained.lt_last]
  exact opens

/-- Closing a log does not change which segments it has. -/
theorem firstLsn_close
    (remembers : Remembers log acknowledged gone) :
    log.close.1.firstLsn = log.firstLsn := by
  have flushed : log.flush.1.segments = log.segments := by
    unfold WriteAheadLog.flush
    cases log.assertWritable with
    | error error =>
        rfl
    | ok _ =>
        dsimp only
        split_ifs
        · rfl
        · unfold WriteAheadLog.writeFully
          rw [takeOutcome_eq]
          dsimp only
          cases log.outcomes.headD .done <;> rfl
  have committed :
      ∀ log : WriteAheadLog, log.commit.1.segments = log.segments := by
    intro log
    unfold WriteAheadLog.commit
    split
    · rfl
    · cases log.assertWritable with
      | error error =>
          rfl
      | ok _ =>
          dsimp only
          unfold WriteAheadLog.fsyncActive
          rw [takeOutcome_eq]
          dsimp only
          cases log.outcomes.headD .done <;> rfl
  have closed : log.close.1.segments = log.segments := by
    unfold WriteAheadLog.close
    simp only [remembers.usable.1, remembers.usable.2, Bool.false_eq_true,
      if_false]
    revert flushed
    generalize log.flush = result
    intro flushed
    rcases result with ⟨later, error | value⟩
    · exact flushed
    · exact (committed later).trans flushed
  unfold WriteAheadLog.firstLsn
  rw [closed]

/-- Closing a broken log does not mend it. -/
theorem broken_close
    {log : WriteAheadLog}
    (isBroken : log.broken = true) :
    log.close.1.broken = true := by
  unfold WriteAheadLog.close
  split_ifs
  · exact isBroken
  · exact isBroken

end Remembers

/-- A log on an empty directory remembers nothing. -/
theorem remembersInFiles_of_openLog_empty
    {options : WriteAheadLogOptions}
    {outcomes : List IoOutcome}
    {log : WriteAheadLog}
    (opens : WriteAheadLog.openLog options [] outcomes = .ok log) :
    RemembersInFiles log [] 0 :=
  ⟨[], [], ⟨1, []⟩, rfl, (keeps_of_openLog_empty opens).1, rfl, trivial⟩

end SinterDb.Wal
