import SinterDb.Wal.WriterFaults

namespace SinterDb.Wal

/-!
# Appending without failures

Every method of a log that nothing fails keeps `LogHolds`: flushing moves the
queued records into the last segment, and appending adds exactly one record at
the end.
-/

/-- A layout that is kept while nothing fails. -/
theorem LogKeeps.holds
    {log : WriteAheadLog}
    {first : Nat}
    {full : List Segment}
    {last : Segment}
    {queued : List WalRecord}
    (keeps : LogKeeps log first full last queued)
    (faultless : log.outcomes = []) :
    LogHolds log first full last queued :=
  ⟨keeps.files, keeps.segments, keeps.chained, keeps.positive, keeps.position,
    keeps.nextLsn, keeps.pending, keeps.pendingBytes, keeps.queuedInMemory,
    faultless, keeps.usable⟩

/-- Without faults a method does what it is for. -/
theorem Ends.of_faultless
    {α : Type}
    {faults : Prop}
    {done : WriteAheadLog → α → Prop}
    {refused : WriteAheadLog → Prop}
    {result : WriteAheadLog × Except LogError α}
    (ends : Ends faults done refused result)
    (faultless : ¬ faults) :
    ∃ log value, result = (log, .ok value) ∧ done log value := by
  cases ends with
  | done isDone =>
      exact ⟨_, _, rfl, isDone⟩
  | refused isFault isRefused =>
      exact absurd isFault faultless
  | broken isFault isBroken =>
      exact absurd isFault faultless

namespace LogHolds

variable
  {log : WriteAheadLog}
  {first : Nat}
  {full : List Segment}
  {last : Segment}
  {queued : List WalRecord}

/-- A held layout is kept whatever the next writes do. -/
theorem keeps
    (holds : LogHolds log first full last queued) :
    LogKeeps log first full last queued :=
  ⟨holds.files, holds.segments, holds.chained, holds.positive, holds.position,
    holds.nextLsn, holds.pending, holds.pendingBytes, holds.queuedInMemory,
    holds.working.2⟩

/-- A log that nothing fails stays so. -/
theorem outcomes_of_sameSettings
    (holds : LogHolds log first full last queued)
    {later : WriteAheadLog}
    (same : SameSettings log later) :
    later.outcomes = [] := by
  by_contra faults
  exact same.faultless faults holds.working.1

/-- Flushing moves the queued records into the last segment. -/
theorem flush
    (holds : LogHolds log first full last queued) :
    ∃ flushed,
      log.flush = (flushed, .ok ()) ∧
        LogHolds flushed first full
          ⟨last.firstLsn, last.records ++ queued⟩ [] ∧
        flushed.nextLsn = log.nextLsn := by
  obtain ⟨flushed, value, flushes, flushedKeeps, same, sameNext⟩ :=
    holds.keeps.flush.of_faultless (not_not_intro holds.working.1)
  exact ⟨flushed, flushes,
    flushedKeeps.holds (holds.outcomes_of_sameSettings same), sameNext⟩

/--
Appending a record that can be encoded succeeds, returns the next sequence
number, and adds exactly that record behind the held ones.
-/
theorem append
    (holds : LogHolds log first full last queued)
    {type : Int}
    {payload encoded : Bytes}
    (encodes : encodeRecord log.nextLsn type payload = .ok encoded) :
    ∃ appended full' last' queued',
      log.append type payload = (appended, .ok log.nextLsn) ∧
        LogHolds appended first full' last' queued' ∧
        heldRecords full' last' queued' =
          heldRecords full last queued ++
            [⟨log.nextLsn, type.toNat, payload⟩] := by
  obtain ⟨appended, lsn, appends, rfl, full', last', queued', appendedKeeps,
      records, same⟩ :=
    (holds.keeps.append encodes).of_faultless (not_not_intro holds.working.1)
  exact ⟨appended, full', last', queued', appends,
    appendedKeeps.holds (holds.outcomes_of_sameSettings same), records⟩

end LogHolds

end SinterDb.Wal
