import SinterDb.Engine.EngineFiles
import SinterDb.Engine.RecordedOperations

namespace SinterDb

open Unicode
open Wal

/-!
# The steps of an engine

What every step of an engine does to the files and the databases: checkpoints
leave both in agreement, and a write changes the databases exactly as the
record that it appends.
-/

namespace StorageEngine

variable
  {damaged : Prop}
  {history pending : List (List Operation)}
  {databases : JsMap JsString CollectionMap}
  {engine : StorageEngine}
  {begun : BegunCheckpoint}

section Broken

/-- A broken log refuses to be flushed. -/
theorem sync_broken
    {log : WriteAheadLog}
    (isBroken : log.broken = true) :
    log.sync.1 = log :=
  congrArg Prod.fst (call_broken isBroken .sync)

/-- Beginning a checkpoint does not mend a log. -/
theorem broken_beginCheckpoint
    (isBroken : engine.log.broken = true) :
    engine.beginCheckpoint.1.log.broken = true := by
  have same := sync_broken isBroken
  unfold beginCheckpoint
  dsimp only
  split_ifs
  · exact isBroken
  · revert same
    generalize engine.log.sync = result
    intro same
    rcases result with ⟨log, error | value⟩
    · cases same
      exact isBroken
    · cases same
      exact isBroken

/-- Finishing a checkpoint does not mend a log. -/
theorem broken_completeCheckpoint
    (isBroken : engine.log.broken = true)
    (begun : BegunCheckpoint)
    (outcome : FileOutcome) :
    (engine.completeCheckpoint begun outcome).1.log.broken = true := by
  have placed : (engine.placeSnapshot begun outcome).1.log = engine.log := by
    unfold placeSnapshot
    cases writeCheckpointSteps begun.lsn begun.collections with
    | error error =>
        rfl
    | ok bytes =>
        cases outcome <;> rfl
  have finished :
      ∀ (engine : StorageEngine) (file : JsString),
        engine.log.broken = true →
          (engine.finishCheckpoint begun file).1.log.broken = true := by
    intro engine file isBroken
    unfold finishCheckpoint
    split_ifs
    · exact isBroken
    · rcases removeSnapshots_eq
          ((newestFirst engine.snapshots).drop
            engine.settings.checkpointRetention) engine with
        ⟨removed, outcomes, -, isRemoved, -⟩
      dsimp only
      revert isRemoved
      generalize
        removeSnapshots
          ((newestFirst engine.snapshots).drop
            engine.settings.checkpointRetention) engine = result
      intro isRemoved
      rcases result with ⟨after, error | value⟩
      · cases isRemoved
        exact isBroken
      · cases isRemoved
        cases (newestFirst engine.snapshots)[
            engine.settings.checkpointRetention - 1]? with
        | none =>
            exact isBroken
        | some oldest =>
            have same :
                (engine.log.truncateThrough oldest.nameLsn).1 = engine.log :=
              congrArg Prod.fst
                (call_broken isBroken (.truncateThrough oldest.nameLsn))
            dsimp only
            revert same
            generalize engine.log.truncateThrough oldest.nameLsn = truncation
            intro same
            rcases truncation with ⟨log, error | removed⟩
            · cases same
              exact isBroken
            · cases same
              exact isBroken
  unfold completeCheckpoint
  revert placed
  generalize engine.placeSnapshot begun outcome = result
  intro placed
  rcases result with ⟨after, error | file⟩
  · rw [placed]
    exact isBroken
  · refine finished after file ?_
    rw [placed]
    exact isBroken

end Broken

section Databases

/-- Beginning a checkpoint does not change the databases. -/
theorem databases_beginCheckpoint
    (engine : StorageEngine) :
    engine.beginCheckpoint.1.databases = engine.databases := by
  unfold beginCheckpoint
  dsimp only
  split_ifs
  · rfl
  · rcases engine.log.sync with ⟨log, error | value⟩ <;> rfl

/-- Completing a checkpoint does not change the databases. -/
theorem databases_completeCheckpoint
    (engine : StorageEngine)
    (begun : BegunCheckpoint)
    (outcome : FileOutcome) :
    (engine.completeCheckpoint begun outcome).1.databases =
      engine.databases := by
  have placed :
      (engine.placeSnapshot begun outcome).1.databases =
        engine.databases := by
    unfold placeSnapshot
    cases writeCheckpointSteps begun.lsn begun.collections with
    | error error =>
        rfl
    | ok bytes =>
        cases outcome <;> rfl
  have finished :
      ∀ (engine : StorageEngine) (file : JsString),
        (engine.finishCheckpoint begun file).1.databases =
          engine.databases := by
    intro engine file
    unfold finishCheckpoint
    split_ifs
    · rfl
    · rcases removeSnapshots_eq
          ((newestFirst engine.snapshots).drop
            engine.settings.checkpointRetention) engine with
        ⟨removed, outcomes, -, isRemoved, -⟩
      dsimp only
      revert isRemoved
      generalize
        removeSnapshots
          ((newestFirst engine.snapshots).drop
            engine.settings.checkpointRetention) engine = result
      intro isRemoved
      rcases result with ⟨after, error | value⟩
      · cases isRemoved
        rfl
      · cases isRemoved
        cases (newestFirst engine.snapshots)[
            engine.settings.checkpointRetention - 1]? with
        | none =>
            rfl
        | some oldest =>
            dsimp only
            rcases engine.log.truncateThrough oldest.nameLsn with
              ⟨log, error | removed⟩ <;> rfl
  unfold completeCheckpoint
  revert placed
  generalize engine.placeSnapshot begun outcome = result
  intro placed
  rcases result with ⟨after, error | file⟩
  · exact placed
  · exact (finished after file).trans placed

/-- `checkpoint` does not change the databases. -/
theorem databases_checkpoint
    (engine : StorageEngine) :
    engine.checkpoint.1.databases = engine.databases := by
  have begins := databases_beginCheckpoint engine.abortActive
  unfold checkpoint
  cases engine.assertOpen with
  | error error =>
      rfl
  | ok _ =>
      dsimp only
      revert begins
      generalize engine.abortActive.beginCheckpoint = result
      intro begins
      rcases result with ⟨after, error | _ | begun⟩
      · exact begins
      · exact begins
      · exact (databases_completeCheckpoint _ _ _).trans begins

/-- A step of a background checkpoint does not change the databases. -/
theorem databases_stepCheckpoint
    (engine : StorageEngine)
    (active : ActiveCheckpoint) :
    (engine.stepCheckpoint active).databases = engine.databases := by
  have taken : engine.takeOutcome.2.databases = engine.databases := by
    unfold takeOutcome
    cases engine.outcomes <;> rfl
  unfold stepCheckpoint
  revert taken
  generalize engine.takeOutcome = result
  intro taken
  rcases result with ⟨outcome, after⟩
  have completed :=
    (databases_completeCheckpoint after active.begun outcome).trans taken
  revert completed
  generalize isResult : after.completeCheckpoint active.begun outcome = result
  intro completed
  rcases result with ⟨final, error | value⟩
  · cases outcome <;> dsimp only <;>
      first | exact taken | (rw [isResult]; exact completed)
  · cases outcome <;> dsimp only <;>
      first | exact taken | (rw [isResult]; exact completed)

/-- `checkpointAsync` does not change the databases. -/
theorem databases_checkpointAsync
    (engine : StorageEngine)
    (caller : CheckpointCaller) :
    (engine.checkpointAsync caller).1.databases = engine.databases := by
  have begins := databases_beginCheckpoint engine
  unfold checkpointAsync
  cases engine.assertOpen with
  | error error =>
      rfl
  | ok _ =>
      dsimp only
      split_ifs
      · rfl
      · revert begins
        generalize engine.beginCheckpoint = result
        intro begins
        rcases result with ⟨after, error | _ | begun⟩
        · exact begins
        · exact begins
        · exact (databases_stepCheckpoint _ _).trans begins

/-- An automatic checkpoint does not change the databases. -/
theorem databases_runDueCheckpoint
    (engine : StorageEngine) :
    engine.runDueCheckpoint.databases = engine.databases := by
  have async := databases_checkpointAsync engine .automatic
  have sync := databases_checkpoint engine
  unfold runDueCheckpoint runAutomaticCheckpoint
  split_ifs
  · revert async
    generalize engine.checkpointAsync .automatic = result
    intro async
    rcases result with ⟨after, error | value⟩ <;> exact async
  · revert sync
    generalize engine.checkpoint = result
    intro sync
    rcases result with ⟨after, error | value⟩ <;> exact sync
  · rfl

/-- Recording does not change the databases. -/
theorem databases_append
    (engine : StorageEngine)
    (operations : List Operation) :
    (engine.append operations).1.databases = engine.databases := by
  unfold append
  cases engine.assertOpen with
  | error error =>
      rfl
  | ok _ =>
      refine Eq.trans ?_ (databases_runDueCheckpoint engine)
      dsimp only
      generalize engine.runDueCheckpoint = after
      unfold record
      cases encodeOperations operations with
      | error error =>
          rfl
      | ok payload =>
          dsimp only
          rcases after.log.append transactionType payload with
            ⟨log, error | lsn⟩
          · cases error <;> rfl
          · rfl

end Databases

section Checkpoints

/-- A checkpoint with a good copy is completed, with the outcomes that are
left. -/
theorem Upholds.completes
    (upholds : Upholds damaged history pending databases engine)
    (copies :
      Kept damaged history pending databases engine →
        Copies history pending engine begun)
    (only :
      ∀ active, engine.activeCheckpoint = some active →
        active.aborted = false → active.begun = begun)
    (outcomes : List FileOutcome)
    (outcome : FileOutcome) :
    Upholds damaged history pending databases
      (completeCheckpoint { engine with outcomes := outcomes }
        begun outcome).1 := by
  rcases upholds with isBroken | kept
  · have sameLog :
        ({ engine with outcomes := outcomes } :
          StorageEngine).log.broken = true :=
      isBroken
    exact .inl (broken_completeCheckpoint sameLog _ _)
  · have isCopy := copies kept
    have keptHere :
        Kept damaged history pending databases
          { engine with outcomes := outcomes } :=
      kept.congr rfl rfl rfl rfl fun _ isActive _ => isActive
    have copiesHere :
        Copies history pending { engine with outcomes := outcomes } begun :=
      ⟨isCopy.exists_image, isCopy.inside, isCopy.counts, isCopy.covers,
        isCopy.newest⟩
    exact .inr (keptHere.completeCheckpoint copiesHere only outcome)

/-- `checkpoint` changes nothing that is kept. -/
theorem Upholds.checkpoint
    (upholds : Upholds damaged history pending databases engine) :
    Upholds damaged history pending databases engine.checkpoint.1 := by
  unfold StorageEngine.checkpoint
  cases isOpen : engine.assertOpen with
  | error error =>
      exact upholds
  | ok _ =>
      dsimp only
      have begins :
          Upholds damaged history pending databases
              engine.abortActive.beginCheckpoint.1 ∧
            ∀ begun,
              engine.abortActive.beginCheckpoint.2 = .ok (some begun) →
                ∀ outcomes outcome,
                  Upholds damaged history pending databases
                    (completeCheckpoint
                      { engine.abortActive.beginCheckpoint.1 with
                        outcomes := outcomes }
                      begun outcome).1 := by
        rcases upholds with isBroken | kept
        · have later : engine.abortActive.beginCheckpoint.1.log.broken = true :=
            broken_beginCheckpoint isBroken
          exact ⟨.inl later, fun begun _ outcomes outcome =>
            .inl (@broken_completeCheckpoint
              { engine.abortActive.beginCheckpoint.1 with
                outcomes := outcomes }
              later begun outcome)⟩
        · have aborted := kept.abortActive
          rcases aborted.1.beginCheckpoint rfl with
            ⟨sameActive, isBroken | ⟨keptAfter, copies⟩⟩
          · exact ⟨.inl isBroken, fun begun _ outcomes outcome =>
              .inl (@broken_completeCheckpoint
                { engine.abortActive.beginCheckpoint.1 with
                  outcomes := outcomes }
                isBroken begun outcome)⟩
          · refine ⟨.inr keptAfter, fun begun isBegun outcomes outcome =>
              Upholds.completes (.inr keptAfter)
                (fun _ => copies begun isBegun) ?_ outcomes outcome⟩
            -- The checkpoint that was being written is given up.
            intro active isActive goesOn
            rw [aborted.2 active (sameActive.symm.trans isActive)] at goesOn
            cases goesOn
      revert begins
      generalize engine.abortActive.beginCheckpoint = result
      rintro ⟨after, complete⟩
      rcases result with ⟨later, error | _ | begun⟩
      · exact after
      · exact after
      · exact complete begun rfl _ _

/-- One step of a background checkpoint changes nothing that is kept. -/
theorem Upholds.stepCheckpoint
    (upholds : Upholds damaged history pending databases engine)
    {active : ActiveCheckpoint}
    (isActive : engine.activeCheckpoint = some active)
    (goesOn : active.aborted = false) :
    Upholds damaged history pending databases
      (engine.stepCheckpoint active) := by
  unfold StorageEngine.stepCheckpoint
  have frame :
      ∃ outcomes, engine.takeOutcome.2 =
        { engine with outcomes := outcomes } := by
    unfold takeOutcome
    cases engine.outcomes with
    | nil =>
        exact ⟨engine.outcomes, rfl⟩
    | cons outcome rest =>
        exact ⟨rest, rfl⟩
  revert frame
  generalize engine.takeOutcome = taken
  rintro ⟨outcomes, isTaken⟩
  rcases taken with ⟨outcome, after⟩
  cases isTaken
  have completed :
      Upholds damaged history pending databases
        (completeCheckpoint { engine with outcomes := outcomes }
          active.begun outcome).1 := by
    refine upholds.completes
      (fun kept => kept.active active isActive goesOn) ?_ outcomes outcome
    intro other isOther _
    have same : active = other :=
      Option.some.inj (isActive.symm.trans isOther)
    rw [same]
  have idle
      {final : StorageEngine}
      (completed : Upholds damaged history pending databases final)
      (rejections : List (CheckpointCaller × Thrown)) :
      Upholds damaged history pending databases
        { final with
          activeCheckpoint := none
          rejections := rejections } := by
    refine completed.imp_right fun kept =>
      kept.congr rfl rfl rfl rfl fun _ isActive _ => ?_
    cases isActive
  cases outcome with
  | paused =>
      exact upholds.imp_right fun kept =>
        kept.congr rfl rfl rfl rfl fun _ isActive _ => isActive
  | done =>
      dsimp only
      revert completed
      rcases completeCheckpoint { engine with outcomes := outcomes }
        active.begun .done with ⟨final, reason | value⟩
      · intro completed
        exact idle completed _
      · intro completed
        exact idle completed final.rejections
  | failed error =>
      dsimp only
      revert completed
      rcases completeCheckpoint { engine with outcomes := outcomes }
        active.begun (.failed error) with ⟨final, reason | value⟩
      · intro completed
        exact idle completed _
      · intro completed
        exact idle completed final.rejections
  | unsynced error =>
      dsimp only
      revert completed
      rcases completeCheckpoint { engine with outcomes := outcomes }
        active.begun (.unsynced error) with ⟨final, reason | value⟩
      · intro completed
        exact idle completed _
      · intro completed
        exact idle completed final.rejections

/-- `checkpointAsync` changes nothing that is kept. -/
theorem Upholds.checkpointAsync
    (upholds : Upholds damaged history pending databases engine)
    (caller : CheckpointCaller) :
    Upholds damaged history pending databases
      (engine.checkpointAsync caller).1 := by
  unfold StorageEngine.checkpointAsync
  cases isOpen : engine.assertOpen with
  | error error =>
      exact upholds
  | ok _ =>
      dsimp only
      split_ifs with isActive
      · exact upholds
      · have idle : engine.activeCheckpoint = none := by
          simpa using isActive
        have begins :
            Upholds damaged history pending databases
                engine.beginCheckpoint.1 ∧
              ∀ begun,
                engine.beginCheckpoint.2 = .ok (some begun) →
                  Upholds damaged history pending databases
                    { engine.beginCheckpoint.1 with
                      activeCheckpoint := some ⟨begun, false, caller⟩ } := by
          rcases upholds with isBroken | kept
          · have later := broken_beginCheckpoint isBroken
            exact ⟨.inl later, fun _ _ => .inl later⟩
          · rcases kept.beginCheckpoint rfl with
              ⟨-, isBroken | ⟨keptAfter, copies⟩⟩
            · exact ⟨.inl isBroken, fun _ _ => .inl isBroken⟩
            · refine ⟨.inr keptAfter, fun begun isBegun => .inr ?_⟩
              have isCopy := copies begun isBegun
              exact
                { isDatabases := keptAfter.isDatabases
                  isOpen := keptAfter.isOpen
                  valid := keptAfter.valid
                  replays := keptAfter.replays
                  settled := keptAfter.settled
                  records := keptAfter.records
                  snapshots := keptAfter.snapshots
                  named := keptAfter.named
                  active := by
                    intro active isActive _
                    have same : (⟨begun, false, caller⟩ : ActiveCheckpoint) =
                        active :=
                      Option.some.inj isActive
                    rw [← same]
                    exact ⟨isCopy.exists_image, isCopy.inside, isCopy.counts,
                      isCopy.covers, isCopy.newest⟩ }
        revert begins
        generalize engine.beginCheckpoint = result
        rintro ⟨after, started⟩
        rcases result with ⟨later, error | _ | begun⟩
        · exact after
        · exact after
        · exact (started begun rfl).stepCheckpoint rfl rfl

/-- The event loop changes nothing that is kept. -/
theorem Upholds.resumeCheckpoint
    (upholds : Upholds damaged history pending databases engine) :
    Upholds damaged history pending databases engine.resumeCheckpoint := by
  unfold StorageEngine.resumeCheckpoint
  cases isActive : engine.activeCheckpoint with
  | none =>
      exact upholds
  | some active =>
      dsimp only
      split_ifs with aborted
      · refine upholds.imp_right fun kept =>
          kept.congr rfl rfl rfl rfl fun _ isActive _ => ?_
        cases isActive
      · exact upholds.stepCheckpoint isActive (by simpa using aborted)

/-- Notes about checkpoints that failed change nothing that is kept. -/
theorem Upholds.note
    (upholds : Upholds damaged history pending databases engine)
    {later : StorageEngine}
    (sameDatabases : later.databases = engine.databases)
    (log : later.log = engine.log)
    (snapshots : later.snapshots = engine.snapshots)
    (closed : later.closed = engine.closed)
    (active : later.activeCheckpoint = engine.activeCheckpoint) :
    Upholds damaged history pending databases later := by
  rcases upholds with isBroken | kept
  · rw [← log] at isBroken
    exact .inl isBroken
  · refine .inr (kept.congr sameDatabases log snapshots closed ?_)
    intro current isActive _
    exact active.symm.trans isActive

/-- Handling a rejection changes nothing that is kept. -/
theorem Upholds.handleRejection
    (upholds : Upholds damaged history pending databases engine) :
    Upholds damaged history pending databases engine.handleRejection := by
  unfold StorageEngine.handleRejection
  cases engine.rejections with
  | nil =>
      exact upholds
  | cons rejection rest =>
      rcases rejection with ⟨caller, error⟩
      cases caller with
      | user =>
          exact upholds.note rfl rfl rfl rfl rfl
      | automatic =>
          exact upholds.note rfl rfl rfl rfl rfl
      | timer =>
          exact upholds.note rfl rfl rfl rfl rfl

/-- An automatic checkpoint changes nothing that is kept. -/
theorem Upholds.runDueCheckpoint
    (upholds : Upholds damaged history pending databases engine) :
    Upholds damaged history pending databases engine.runDueCheckpoint := by
  have async := upholds.checkpointAsync .automatic
  have sync := upholds.checkpoint
  unfold StorageEngine.runDueCheckpoint StorageEngine.runAutomaticCheckpoint
  split_ifs
  · revert async
    generalize engine.checkpointAsync .automatic = result
    intro async
    rcases result with ⟨after, error | value⟩
    · exact async.note rfl rfl rfl rfl rfl
    · exact async
  · revert sync
    generalize engine.checkpoint = result
    intro sync
    rcases result with ⟨after, error | value⟩
    · exact sync.note rfl rfl rfl rfl rfl
    · exact sync
  · exact upholds

/-- The checkpoint timer changes nothing that is kept. -/
theorem Upholds.checkpointTimer
    (upholds : Upholds damaged history pending databases engine) :
    Upholds damaged history pending databases engine.checkpointTimer := by
  have async := upholds.checkpointAsync .timer
  have sync := upholds.checkpoint
  unfold StorageEngine.checkpointTimer
  split_ifs
  · exact upholds
  · revert async
    generalize engine.checkpointAsync .timer = result
    intro async
    rcases result with ⟨after, error | value⟩
    · exact async.note rfl rfl rfl rfl rfl
    · exact async
  · revert sync
    generalize engine.checkpoint = result
    intro sync
    rcases result with ⟨after, error | value⟩
    · exact sync.note rfl rfl rfl rfl rfl
    · exact sync

/-- Flushing the log changes nothing that is kept. -/
theorem Upholds.flushTimer
    (upholds : Upholds damaged history pending databases engine) :
    Upholds damaged history pending databases engine.flushTimer := by
  rcases upholds with isBroken | kept
  · have same : engine.log.flush.1 = engine.log :=
      congrArg Prod.fst (call_broken isBroken .flush)
    refine .inl ?_
    unfold StorageEngine.flushTimer
    rw [same]
    exact isBroken
  · exact kept.withLog fun _ remembers => remembers.flush

/-- Committing the log changes nothing that is kept. -/
theorem Upholds.commit
    (upholds : Upholds damaged history pending databases engine) :
    Upholds damaged history pending databases engine.commit.1 := by
  unfold StorageEngine.commit
  split_ifs
  · exact upholds
  · rcases upholds with isBroken | kept
    · have same : engine.log.commit.1 = engine.log :=
        congrArg Prod.fst (call_broken isBroken .commit)
      refine .inl ?_
      dsimp only
      rw [same]
      exact isBroken
    · exact kept.withLog fun _ remembers => remembers.commit

end Checkpoints

end StorageEngine

end SinterDb
