import SinterDb.Inspect.RepairCut
import SinterDb.Inspect.Verdict

namespace SinterDb

open Unicode
open Wal

/-!
# What a repair leaves

The directory after all planned actions have been carried out, and whether the
inspection calls it recoverable.
-/

/-- What the inspection checks. -/
theorem recoverable_iff (files : DataFiles) :
    (inspectDataDirectory files).recovery.recoverable = true ↔
      manifestProblems (inspectManifest files.manifest)
          (inspectLog files.segments) = [] ∧
        (inspectLog files.segments).damage = none ∧
        (inspectLog files.segments).firstLsn.getD 1 ≤ files.baseLsn + 1 ∧
        (files.baseLsn : Int) ≤ (inspectLog files.segments).lastLsn := by
  have isProblems :
      (inspectDataDirectory files).recovery.recoverable = true ↔
        manifestProblems (inspectManifest files.manifest)
            (inspectLog files.segments) = [] ∧
          logProblems files.root (inspectSnapshots files) files.baseReport
            (inspectLog files.segments) = [] := by
    simp only [inspectDataDirectory, judge, List.isEmpty_iff,
      List.append_eq_nil_iff]
    rfl
  rw [isProblems]
  unfold logProblems
  cases (inspectLog files.segments).damage with
  | some damage =>
      simp
  | none =>
      simp only [List.append_eq_nil_iff, true_and]
      change _ ∧ (if files.baseLsn + 1 < _ then _ else _) = [] ∧
        (if _ < (files.baseLsn : Int) then _ else _) = [] ↔ _
      refine and_congr_right fun _ => and_congr ?_ ?_
      · split_ifs with compacted
        · simpa using compacted
        · simpa using compacted
      · split_ifs with lost
        · simpa using lost
        · simpa using lost

/-- There is nothing to repair exactly if the directory is recoverable. -/
theorem problems_iff (files : DataFiles) :
    (inspectDataDirectory files).recovery.problems = [] ↔
      (inspectDataDirectory files).recovery.recoverable = true := by
  simp only [inspectDataDirectory, judge, List.isEmpty_iff]

namespace RepairState

/-- Actions one after the other. -/
theorem apply_append
    (now : JsString)
    (options : RepairOptions)
    (state : RepairState)
    (first second : List PlannedAction) :
    apply now options state (first ++ second) =
      match apply now options state first with
      | (state, some error) => (state, some error)
      | (state, none) => apply now options state second := by
  induction first generalizing state with
  | nil =>
      rfl
  | cons action rest inductionHypothesis =>
      rw [List.cons_append, apply, apply]
      by_cases allowed : isAllowed action options
      · rw [if_pos allowed, if_pos allowed]
        cases ran : state.run now action.step with
        | mk later result =>
            cases result with
            | none =>
                exact inductionHypothesis later
            | some error =>
                rfl
      · rw [if_neg allowed, if_neg allowed]
        exact inductionHypothesis state

/-- One allowed action. -/
theorem apply_singleton
    {now : JsString}
    {options : RepairOptions}
    {action : PlannedAction}
    (allowed : isAllowed action options = true)
    (state : RepairState) :
    apply now options state [action] = state.run now action.step := by
  rw [apply, if_pos allowed]
  cases state.run now action.step with
  | mk later result =>
      cases result with
      | none =>
          rfl
      | some error =>
          rfl

/-- Taking over the lock changes no file. -/
theorem apply_planLock
    (now : JsString)
    (lock : Option LockDescription)
    (options : RepairOptions)
    (state : RepairState) :
    apply now options state (planLock lock options).planned =
      (state, none) := by
  cases lock with
  | none =>
      rfl
  | some lock =>
      unfold planLock
      cases isState : lock.state with
      | foreign =>
          simp only [isState]
          rw [apply]
          split_ifs <;> rfl
      | _ =>
          simp only [isState]
          rfl

end RepairState

/-- What is planned for a manifest. -/
inductive ManifestPlan (report : InspectionReport) : RepairPlan → Prop where
  | blocked
      (reason : JsString) :
      ManifestPlan report { blocked := [reason] }
  | rebuild
      (action : PlannedAction)
      (moveOld : Bool)
      (isRebuild : action.step = .rebuildManifest moveOld)
      (lossless : action.dataLoss = false)
      (needed :
        report.manifest.status ≠ .missing ∨ report.log.segments ≠ []) :
      ManifestPlan report { planned := [action] }
  | nothing
      (fine :
        report.manifest.status = .ok ∨
          report.manifest.status = .missing ∧ report.log.segments = []) :
      ManifestPlan report {}

/-- A manifest is kept, rebuilt, or not to be changed. -/
theorem manifestPlan (report : InspectionReport) :
    ManifestPlan report (planManifest report) := by
  unfold planManifest
  simp only
  by_cases isBlocked :
      report.manifest.status = .foreign ∨ report.manifest.status = .newer
  · rw [if_pos isBlocked]
    exact .blocked _
  · rw [if_neg isBlocked]
    by_cases rebuilds :
        report.manifest.status = .unreadable ∨
          report.manifest.status = .invalid ∨
            (report.manifest.status = .missing ∧ report.log.segments ≠ [])
    · rw [if_pos rebuilds]
      refine .rebuild _ _ rfl rfl ?_
      rcases rebuilds with unreadable | invalid | ⟨_, some⟩
      · exact .inl (by simp [unreadable])
      · exact .inl (by simp [invalid])
      · exact .inr some
    · rw [if_neg rebuilds]
      refine .nothing ?_
      revert isBlocked rebuilds
      cases report.manifest.status <;> simp

/-- The manifest that a repair leaves. -/
def repairedManifest (now : JsString) (files : DataFiles) : ManifestJson :=
  if (planManifest (inspectDataDirectory files)).planned = [] then
    files.manifest
  else
    RepairState.newManifest now

/-- The action on the manifest changes nothing but the manifest. -/
theorem apply_planManifest
    {options : RepairOptions}
    {files : DataFiles}
    (granted :
      ∀ action ∈ (planManifest (inspectDataDirectory files)).planned,
        isAllowed action options = true)
    (now : JsString) :
    ∃ quarantine,
      RepairState.apply now options { files := files }
          (planManifest (inspectDataDirectory files)).planned =
        ({ files := { files with manifest := repairedManifest now files }
           quarantine := quarantine }, none) := by
  have plan := manifestPlan (inspectDataDirectory files)
  unfold repairedManifest
  revert granted plan
  generalize planManifest (inspectDataDirectory files) = manifest
  intro granted plan
  cases plan with
  | blocked reason =>
      exact ⟨[], rfl⟩
  | rebuild action moveOld isRebuild _ _ =>
      rw [RepairState.apply_singleton (granted _ (List.mem_singleton_self _)),
        isRebuild]
      simp only [RepairState.run, List.cons_ne_nil, if_false]
      exact ⟨_, rfl⟩
  | nothing fine =>
      exact ⟨[], rfl⟩

/-- The manifest that a repair leaves is fine, unless there was none and the
log has become the first file of the directory. -/
theorem manifestProblems_repaired
    {files : DataFiles}
    (unblocked :
      (planManifest (inspectDataDirectory files)).blocked = [])
    (now : JsString)
    (log : LogReport) :
    manifestProblems (inspectManifest (repairedManifest now files)) log =
        [] ↔
      ¬ (files.manifest = .missing ∧ files.segments = [] ∧
        log.segments ≠ []) := by
  have plan := manifestPlan (inspectDataDirectory files)
  have noSegments :
      (inspectDataDirectory files).log.segments = [] ↔
        files.segments = [] :=
    inspectLog_segments files.segments
  have isMissing :
      (inspectDataDirectory files).manifest.status = .missing ↔
        files.manifest = .missing := by
    change (inspectManifest files.manifest).status = _ ↔ _
    cases files.manifest with
    | object fields =>
        simpa [inspectManifest] using (inspectFields_status fields).1
    | _ =>
        simp [inspectManifest]
  unfold repairedManifest
  revert unblocked plan
  generalize planManifest (inspectDataDirectory files) = manifest
  intro unblocked plan
  cases plan with
  | blocked reason =>
      cases unblocked
  | rebuild action moveOld isRebuild _ needed =>
      simp only [ne_eq, isMissing, noSegments] at needed
      have isNew :
          manifestProblems (inspectManifest (RepairState.newManifest now))
            log = [] := rfl
      simp only [List.cons_ne_nil, if_false, isNew, true_iff]
      rintro ⟨missing, none, _⟩
      exact needed.elim (fun other => other missing) (fun some => some none)
  | nothing fine =>
      simp only [if_true]
      rw [isMissing, noSegments] at fine
      rcases fine with isOk | ⟨missing, none⟩
      · have isFine :
            manifestProblems (inspectManifest files.manifest) log = [] := by
          change (inspectManifest files.manifest).status = .ok at isOk
          simp [manifestProblems, isOk]
        have notMissing : files.manifest ≠ .missing := by
          rw [ne_eq, ← isMissing, isOk]
          simp
        simp [isFine, notMissing]
      · simp [missing, none, inspectManifest, manifestProblems]

/-- The last number of some segments, if one has a usable header. -/
def lastLeft (reports : List SegmentReport) : Option Int :=
  (reports.filterMap SegmentReport.lastLsn).getLast?

/-- The last number is that of the last segment that is fine. -/
theorem lastLeft_passed
    {front tail : List SegmentReport}
    (fits : ∀ report ∈ front ++ tail, Fits report)
    (passed : ∀ report ∈ front, Passed report)
    (isTail :
      tail = [] ∨
        ∃ last, tail = [last] ∧ last.status = .incompleteHeader) :
    lastLeft (front ++ tail) =
      front.getLast?.bind SegmentReport.lastLsn := by
  have noTail : tail.filterMap SegmentReport.lastLsn = [] := by
    rcases isTail with rfl | ⟨last, rfl, incomplete⟩
    · rfl
    · have isNone :=
        ((fits last (by simp)).unusable (.inr incomplete)).2
      simp [isNone]
  unfold lastLeft
  rw [List.filterMap_append, noTail, List.append_nil]
  rcases front.eq_nil_or_concat with rfl | ⟨early, last, isFront⟩
  · rfl
  · rw [List.concat_eq_append] at isFront
    subst isFront
    have header := (passed last (by simp)).header
    obtain ⟨_, number, _, isNumber⟩ :=
      (fits last (by simp)).usable header.1 header.2
    simp [isNumber]

/-- What is left of a log when the segments in front of a clean one have been
moved away. -/
theorem inspectLog_drop
    {segments : List SegmentFile}
    (distinct : (segments.map SegmentFile.nameLsn).Nodup)
    {reports : List SegmentReport}
    (isReports : reports = analyzeLoop none (sortedFiles segments))
    {index : Nat}
    (inside : index < reports.length)
    (cleanBack : CleanBehindGap (reports.drop index))
    {bound : Nat}
    (small :
      (reports[index]?.bind SegmentReport.firstLsn).getD (bound + 2) ≤
        bound + 1)
    {left : LogReport}
    (isLeft :
      left =
        inspectLog
          (unlinkAll segments
            ((reports.take index).map SegmentReport.file))) :
    left.damage = none ∧
      left.segments ≠ [] ∧
      left.firstLsn.getD 1 ≤ bound + 1 ∧
      lastLeft (reports.drop index) = some left.lastLsn := by
  have names :
      (reports.take index).map SegmentReport.file =
        ((sortedFiles segments).take index).map SegmentFile.nameLsn := by
    rw [List.map_take, List.map_take, isReports, map_file_analyzeLoop]
  have size : reports.length = (sortedFiles segments).length := by
    rw [isReports]
    exact length_analyzeLoop none _
  have sorted :
      sortedFiles
          (unlinkAll segments
            ((reports.take index).map SegmentReport.file)) =
        (sortedFiles segments).drop index := by
    rw [names]
    exact
      (sortedFiles_unlinkAll distinct
        (List.take_append_drop _ _).symm).1
  obtain ⟨first, rest, isBack⟩ :
      ∃ first rest,
        (sortedFiles segments).drop index = first :: rest := by
    refine List.exists_cons_of_ne_nil ?_
    rw [ne_eq, List.drop_eq_nil_iff]
    omega
  obtain ⟨report, later, isDrop, isAnalysis⟩ :=
    analyzeLoop_back ((sortedFiles segments).take index) first rest
  rw [← isBack, List.take_append_drop, List.length_take,
    Nat.min_eq_left (by omega), ← isReports] at isDrop
  rw [isDrop] at cleanBack
  have clean : CleanReports ({ report with gap := none } :: later) :=
    ⟨cleanBack.1, rfl, cleanBack.2⟩
  have fitsLeft :
      ∀ other ∈ { report with gap := none } :: later, Fits other := by
    rw [← isAnalysis]
    exact fits_analyzeLoop none _
  obtain ⟨front, tail, isSplit, passed, isTail⟩ := clean.splits
  have isSummary :
      left =
        summarizeLog ({ report with gap := none } :: later) := by
    rw [isLeft]
    unfold inspectLog
    rw [sorted, isBack, isAnalysis]
  have sums :
      summarizeLoop {} ({ report with gap := none } :: later) =
        LogSummary.addAll {} front := by
    rw [isSplit]
    exact summarizeLoop_clean passed isTail
  rw [isSplit] at fitsLeft
  obtain ⟨undamaged, firstLsn, lastLsn⟩ :=
    addAll_numbers
      (fun other member => fitsLeft other (List.mem_append_left tail member))
      (fun other member => (passed other member).header) {}
  have isFirst : reports[index]? = some report := by
    rw [← List.head?_drop, isDrop]
    rfl
  rw [isFirst, Option.bind_some] at small
  obtain ⟨number, isNumber⟩ :
      ∃ number, report.firstLsn = some number := by
    cases isNone : report.firstLsn with
    | none =>
        rw [isNone, Option.getD_none] at small
        omega
    | some number =>
        exact ⟨number, rfl⟩
  cases front with
  | nil =>
      -- The first of the remaining segments has a usable header.
      rcases isTail with rfl | ⟨last, rfl, incomplete⟩
      · cases isSplit
      · obtain ⟨rfl, rfl⟩ := List.cons.inj isSplit
        have isNone := ((fitsLeft _ (by simp)).unusable (.inr incomplete)).1
        rw [isNumber] at isNone
        cases isNone
  | cons head others =>
      obtain ⟨rfl, isLater⟩ := List.cons.inj isSplit
      rw [isSummary]
      simp only [summarizeLog, sums, undamaged, firstLsn, lastLsn]
      refine ⟨trivial, by simp, ?_, ?_⟩
      · rw [isNumber, Option.getD_some] at small
        simpa [isNumber] using small
      · have isLast :
            lastLeft ({ report with gap := none } :: later) =
              lastLeft (report :: later) := by
          simp [lastLeft]
        rw [isDrop, ← isLast, isSplit, lastLeft_passed fitsLeft passed isTail]
        have isSome :=
          List.getLast?_eq_some_getLast
            (List.cons_ne_nil { report with gap := none } others)
        rw [isSome]
        have member := List.mem_of_getLast? isSome
        obtain ⟨_, last, _, isLsn⟩ :=
          (fitsLeft _ (List.mem_append_left tail member)).usable
            (passed _ member).header.1 (passed _ member).header.2
        simp [isLsn]

/-- What is planned for a log. -/
inductive LogPlan (report : InspectionReport) : RepairPlan → Prop where
  | nothing
      (undamaged : report.log.damage = none)
      (reaches : ¬ hasLogShortfall report) :
      LogPlan report {}
  | quarantine
      (covers : coversPrefix report) :
      LogPlan report { planned := [planPrefix report] }
  | blocked
      (reason : JsString) :
      LogPlan report { blocked := [reason] }
  | newLog
      (uncovered : ¬ coversPrefix report)
      (ends :
        report.log.segments.take
            (truncationPoint report.log.segments report.log.damage).1 = [] ∨
          report.log.lastLsn < report.recovery.baseLsn) :
      LogPlan report { planned := planNewLog report }
  | cut
      (uncovered : ¬ coversPrefix report)
      (problem : report.log.damage ≠ none ∨ hasLogShortfall report)
      (covered :
        ((report.log.segments.take
          (truncationPoint report.log.segments
            report.log.damage).1).head?.bind
              SegmentReport.firstLsn).getD 0 ≤
          report.recovery.baseLsn + 1)
      (reaches : (report.recovery.baseLsn : Int) ≤ report.log.lastLsn) :
      LogPlan report
        { planned :=
            [planCut report
              (truncationPoint report.log.segments report.log.damage).1
              (truncationPoint report.log.segments report.log.damage).2] }

/-- A log is kept, loses its front, is started anew or is cut. -/
theorem logPlan (files : DataFiles) :
    LogPlan (inspectDataDirectory files)
      (planLog (inspectDataDirectory files)) := by
  unfold planLog
  by_cases recoverable :
      (inspectDataDirectory files).recovery.problems = []
  · rw [if_pos recoverable]
    obtain ⟨_, undamaged, first, last⟩ :=
      (recoverable_iff files).mp ((problems_iff files).mp recoverable)
    refine .nothing undamaged ?_
    unfold hasLogShortfall
    change ¬ (files.baseLsn + 1 < (inspectLog files.segments).firstLsn.getD 1 ∨
      (inspectLog files.segments).lastLsn < files.baseLsn)
    omega
  · rw [if_neg recoverable]
    by_cases fine :
        (inspectDataDirectory files).log.damage = none ∧
          ¬ hasLogShortfall (inspectDataDirectory files)
    · rw [if_pos fine]
      exact .nothing fine.1 fine.2
    · rw [if_neg fine]
      by_cases covers : coversPrefix (inspectDataDirectory files)
      · rw [if_pos covers]
        exact .quarantine covers
      · rw [if_neg covers]
        unfold planTruncation
        simp only
        split_ifs with isBlocked ends
        · exact .blocked _
        · exact .newLog covers ends
        · refine .cut covers ?_ (by omega) (by
            have reaches := (not_or.mp ends).2
            omega)
          by_cases undamaged :
              (inspectDataDirectory files).log.damage = none
          · exact .inr (not_not.mp fun reaches => fine ⟨undamaged, reaches⟩)
          · exact .inl undamaged

/-- The directory is recoverable after the repair. -/
theorem recoverable_repaired
    {files left : DataFiles}
    (unblocked :
      (planManifest (inspectDataDirectory files)).blocked = [])
    {now : JsString}
    (sameManifest : left.manifest = repairedManifest now files)
    (sameSnapshots : left.snapshots = files.snapshots) :
    (inspectDataDirectory left).recovery.recoverable = true ↔
      ¬ (files.manifest = .missing ∧ files.segments = [] ∧
          left.segments ≠ []) ∧
        (inspectLog left.segments).damage = none ∧
        (inspectLog left.segments).firstLsn.getD 1 ≤ files.baseLsn + 1 ∧
        (files.baseLsn : Int) ≤ (inspectLog left.segments).lastLsn := by
  have sameBase : left.baseLsn = files.baseLsn := by
    unfold DataFiles.baseLsn DataFiles.baseReport inspectSnapshots
      DataFiles.listCheckpoints
    rw [sameSnapshots]
  rw [recoverable_iff, sameManifest, manifestProblems_repaired unblocked,
    sameBase, ne_eq, inspectLog_segments]

/-- The directory in front of the actions on the log. -/
def beforeLog
    (now : JsString)
    (files : DataFiles)
    (quarantine : List Quarantined) : RepairState where
  files := { files with manifest := repairedManifest now files }
  quarantine := quarantine

/-- A repair is what its actions on the log do. -/
theorem repairDataDirectory_eq
    {lock : Option LockDescription}
    {options : RepairOptions}
    {files : DataFiles}
    (granted :
      ∀ action ∈
          (planRepair (inspectDataDirectory files) lock options).planned,
        isAllowed action options = true)
    (now : JsString) :
    ∃ quarantine,
      repairDataDirectory now lock options files =
        RepairState.apply now options (beforeLog now files quarantine)
          (planLog (inspectDataDirectory files)).planned := by
  obtain ⟨quarantine, manifest⟩ :=
    @apply_planManifest options files
      (fun action member => granted action (by
        unfold planRepair
        simp [member])) now
  refine ⟨quarantine, ?_⟩
  unfold repairDataDirectory planRepair
  simp only
  rw [List.append_assoc, RepairState.apply_append, manifest]
  simp only
  rw [RepairState.apply_append]
  unfold beforeLog
  cases RepairState.apply now options
      { files := { files with manifest := repairedManifest now files }
        quarantine := quarantine }
      (planLog (inspectDataDirectory files)).planned with
  | mk state result =>
      cases result with
      | some error =>
          rfl
      | none =>
          exact RepairState.apply_planLock now lock options state

/-- A repair has carried out all its actions, and the directory can be opened
again. -/
def Finished (result : RepairState × Option RepairError) : Prop :=
  result.2 = none ∧
    (inspectDataDirectory result.1.files).recovery.recoverable = true

/-- When a repair that has carried out its actions is finished. -/
theorem finished_iff
    {files : DataFiles}
    (unblocked :
      (planManifest (inspectDataDirectory files)).blocked = [])
    {now : JsString}
    {state : RepairState}
    (sameManifest : state.files.manifest = repairedManifest now files)
    (sameSnapshots : state.files.snapshots = files.snapshots)
    {segments : List SegmentFile}
    (isSegments : state.files.segments = segments) :
    Finished (state, none) ↔
      ¬ (files.manifest = .missing ∧ files.segments = [] ∧
          segments ≠ []) ∧
        (inspectLog segments).damage = none ∧
        (inspectLog segments).firstLsn.getD 1 ≤ files.baseLsn + 1 ∧
        (files.baseLsn : Int) ≤ (inspectLog segments).lastLsn := by
  unfold Finished
  rw [← isSegments,
    ← recoverable_repaired unblocked sameManifest sameSnapshots]
  exact and_iff_right rfl

/-- The segments behind the ones that are moved away end in front of the
snapshot. -/
def ShortRemainder (files : DataFiles) : Prop :=
  let reports := (inspectDataDirectory files).log.segments
  coversPrefix (inspectDataDirectory files) ∧
    ∃ last,
      lastLeft (reports.drop (firstCleanIndex reports)) = some last ∧
        last < files.baseLsn

/-- The log is cut inside a segment that does not follow on. -/
def GapKept (files : DataFiles) : Prop :=
  let log := (inspectDataDirectory files).log
  ¬ coversPrefix (inspectDataDirectory files) ∧
    (files.baseLsn : Int) ≤ log.lastLsn ∧
    ∃ damage segment,
      log.damage = some damage ∧
        segment ∈ log.segments ∧
        segment.file = damage.file ∧
        CorruptBehindGap segment

/-- The log has to be started anew, and the new segment cannot be created or
is not expected by the manifest. -/
def NoNewLog (files : DataFiles) : Prop :=
  ¬ coversPrefix (inspectDataDirectory files) ∧
    0 < files.baseLsn ∧
    (inspectDataDirectory files).log.lastLsn < files.baseLsn ∧
    (2 ^ 64 ≤ files.baseLsn + 1 ∨ files.wal = none ∨
      files.manifest = .missing ∧ files.segments = [])

/-- The directories that one run of the repair leaves unfinished. -/
def Unfinished (files : DataFiles) : Prop :=
  ShortRemainder files ∨ GapKept files ∨ NoNewLog files

/-- A log without problems is left as it is. -/
theorem finished_nothing
    {files : DataFiles}
    (unblocked :
      (planManifest (inspectDataDirectory files)).blocked = [])
    (undamaged : (inspectDataDirectory files).log.damage = none)
    (reaches : ¬ hasLogShortfall (inspectDataDirectory files))
    (now : JsString)
    (quarantine : List Quarantined) :
    Finished (beforeLog now files quarantine, none) ∧
      ¬ Unfinished files := by
  have isReached :
      ¬ (files.baseLsn + 1 < (inspectLog files.segments).firstLsn.getD 1 ∨
        (inspectLog files.segments).lastLsn < files.baseLsn) :=
    reaches
  constructor
  · refine
      (@finished_iff files unblocked now (beforeLog now files quarantine) rfl
        rfl files.segments rfl).mpr ?_
    refine ⟨fun both => both.2.2 both.2.1, undamaged, ?_, ?_⟩
    · omega
    · omega
  · rintro (⟨covers, _⟩ | ⟨_, _, damage, _, isDamage, _⟩ | ⟨_, _, lost, _⟩)
    · exact covers.1 undamaged
    · rw [undamaged] at isDamage
      cases isDamage
    · exact isReached (.inr lost)

/-- The names in the reports are those of the sorted files. -/
theorem map_file_reports (files : DataFiles) :
    (inspectDataDirectory files).log.segments.map SegmentReport.file =
      (sortedFiles files.segments).map SegmentFile.nameLsn :=
  map_file_analyzeLoop none _

/-- The front of a log is moved away. -/
theorem finished_quarantine
    {files : DataFiles}
    (unblocked :
      (planManifest (inspectDataDirectory files)).blocked = [])
    (covers : coversPrefix (inspectDataDirectory files))
    (now : JsString)
    (quarantine : List Quarantined) :
    Finished
        ((beforeLog now files quarantine).run now
          (planPrefix (inspectDataDirectory files)).step) ↔
      ¬ Unfinished files := by
  have names :
      ((inspectDataDirectory files).log.segments.take
          (firstCleanIndex (inspectDataDirectory files).log.segments)).map
          SegmentReport.file =
        ((sortedFiles files.segments).take
          (firstCleanIndex
            (inspectDataDirectory files).log.segments)).map
          SegmentFile.nameLsn := by
    rw [List.map_take, map_file_reports, List.map_take]
  have moves :=
    @RepairState.moveSegments_sorted (beforeLog now files quarantine)
      ((sortedFiles files.segments).take
        (firstCleanIndex (inspectDataDirectory files).log.segments))
      (List.take_sublist _ _)
  obtain ⟨undamaged, some, first, last⟩ :=
    @inspectLog_drop files.segments files.distinct_segments
      (inspectDataDirectory files).log.segments rfl _ covers.2.1
      (cleanBehindGap_firstCleanIndex _) files.baseLsn covers.2.2.2 _ rfl
  change Finished
    ((beforeLog now files quarantine).moveSegments
      (((inspectDataDirectory files).log.segments.take
        (firstCleanIndex (inspectDataDirectory files).log.segments)).map
        SegmentReport.file)) ↔ _
  rw [names, moves, finished_iff unblocked rfl rfl
    (DataFiles.segments_removeSegments _ _), ← names]
  change ¬ (_ ∧ _ ∧ unlinkAll files.segments _ ≠ []) ∧
    (inspectLog (unlinkAll files.segments _)).damage = none ∧
    (inspectLog (unlinkAll files.segments _)).firstLsn.getD 1 ≤ _ ∧
    _ ≤ (inspectLog (unlinkAll files.segments _)).lastLsn ↔ _
  have present : files.segments ≠ [] := by
    intro nothing
    have inside := covers.2.1
    rw [show (inspectDataDirectory files).log.segments = [] from
      (inspectLog_segments files.segments).mpr nothing] at inside
    cases inside
  constructor
  · rintro ⟨_, _, _, reaches⟩
    rintro (⟨_, number, isNumber, short⟩ | ⟨uncovered, _⟩ | ⟨uncovered, _⟩)
    · obtain rfl := Option.some_inj.mp (last.symm.trans isNumber)
      omega
    · exact uncovered covers
    · exact uncovered covers
  · intro complete
    refine ⟨fun both => present both.2.1, undamaged, first, ?_⟩
    by_contra short
    exact complete (.inl ⟨covers, _, last, by omega⟩)

/-- A log of which nothing is kept has no record. -/
theorem lastLsn_of_nothingKept
    {segments : List SegmentFile}
    (distinct : (segments.map SegmentFile.nameLsn).Nodup)
    (nothing :
      (inspectLog segments).segments.take
        (truncationPoint (inspectLog segments).segments
          (inspectLog segments).damage).1 = []) :
    (inspectLog segments).lastLsn = 0 := by
  by_cases undamaged : (inspectLog segments).damage = none
  · rw [undamaged] at nothing
    simp only [truncationPoint, List.take_length] at nothing
    obtain rfl := (inspectLog_segments segments).mp nothing
    rfl
  · obtain ⟨early, file, late, isDamaged⟩ := damagedAt_of_damage undamaged
    rw [isDamaged.truncationPoint distinct, isDamaged.reports] at nothing
    have isLast := isDamaged.numbers.2
    split_ifs at nothing with corrupt
    · simp at nothing
    · have noneEarly : innerReports none early = [] := by
        simpa [length_innerReports] using nothing
      rw [isLast, if_neg fun both => corrupt both.1, noneEarly]
      rfl

/-- A log that is cut inside a segment behind a gap is not started anew. -/
theorem kept_of_gapKept
    {files : DataFiles}
    (kept : GapKept files) :
    (inspectDataDirectory files).log.segments.take
      (truncationPoint (inspectDataDirectory files).log.segments
        (inspectDataDirectory files).log.damage).1 ≠ [] := by
  obtain ⟨_, _, damage, segment, isDamage, member, isNamed, corrupt, _⟩ := kept
  have damaged : (inspectLog files.segments).damage ≠ none := by
    change (inspectLog files.segments).damage = some damage at isDamage
    simp [isDamage]
  obtain ⟨early, file, late, isDamaged⟩ := damagedAt_of_damage damaged
  have isSegment :=
    isDamaged.segment_eq files.distinct_segments isDamage member isNamed
  change (inspectLog files.segments).segments.take
    (truncationPoint (inspectLog files.segments).segments
      (inspectLog files.segments).damage).1 ≠ []
  rw [isDamaged.truncationPoint files.distinct_segments, ← isSegment,
    if_pos corrupt, isDamaged.reports]
  simp

/-- Nothing is left when all segments are moved away. -/
theorem unlinkAll_all (segments : List SegmentFile) :
    unlinkAll segments
      ((sortedFiles segments).map SegmentFile.nameLsn) = [] := by
  unfold unlinkAll
  rw [List.filter_eq_nil_iff]
  intro file member
  have isSorted : file ∈ sortedFiles segments :=
    (List.mem_insertionSort _).mpr member
  simpa using ⟨file, isSorted, rfl⟩

/-- The inspection of a log that has just been started. -/
theorem inspectLog_fresh
    {firstLsn : Nat}
    (bound : firstLsn < 2 ^ 64) :
    let log := inspectLog [⟨firstLsn, encodeSegmentHeader firstLsn⟩]
    log.damage = none ∧
      log.firstLsn = some firstLsn ∧
      log.lastLsn = (firstLsn : Int) - 1 := by
  have scans := @scanRecords_segment ⟨firstLsn, []⟩ trivial
  have header : decodeSegmentHeader (encodeSegmentHeader firstLsn) =
      .ok firstLsn := by
    simpa using decodeSegmentHeader_encode bound []
  have isBytes :
      Segment.bytes ⟨firstLsn, []⟩ = encodeSegmentHeader firstLsn := by
    simp [Segment.bytes]
  rw [isBytes] at scans
  simp [inspectLog, sortedFiles, analyzeLoop, reportSegment, analyzeSegment,
    header, scans, summarizeLog, summarizeLoop, segmentStatus, findGap,
    LogSummary.add, Segment.nextLsn]

/-- A new segment is created in an empty log. -/
theorem createSegment_empty
    {state : RepairState}
    (empty : state.files.segments = [])
    (firstLsn : Nat) :
    (2 ^ 64 ≤ firstLsn ∨ state.files.wal = none →
        (state.createSegment firstLsn).2 ≠ none) ∧
      (¬ (2 ^ 64 ≤ firstLsn ∨ state.files.wal = none) →
        ∃ wal : WalDirectory,
          wal.segments = [⟨firstLsn, encodeSegmentHeader firstLsn⟩] ∧
            state.createSegment firstLsn =
              ({ state with
                  files := { state.files with wal := some wal } },
                none)) := by
  unfold RepairState.createSegment
  constructor
  · rintro (large | missing)
    · rw [if_pos large]
      simp
    · split_ifs
      · simp
      · rw [missing]
        simp
  · rw [not_or]
    rintro ⟨small, present⟩
    obtain ⟨wal, isWal⟩ := Option.ne_none_iff_exists'.mp present
    have noSegments : wal.segments = [] := by
      unfold DataFiles.segments at empty
      rw [isWal] at empty
      exact empty
    have fresh : (readSegment wal.segments firstLsn).isSome = false := by
      rw [noSegments]
      rfl
    refine ⟨wal.addSegment firstLsn (encodeSegmentHeader firstLsn) fresh,
      ?_, ?_⟩
    · simp [WalDirectory.addSegment, noSegments]
    · rw [if_neg small, isWal]
      simp only [dif_pos fresh]

/-- All segments are moved away. -/
theorem run_moveAll
    (now : JsString)
    (files : DataFiles)
    (quarantine : List Quarantined) :
    ∃ moved,
      (beforeLog now files quarantine).run now
          (.quarantineSegments
            ((inspectDataDirectory files).log.segments.map
              SegmentReport.file)) =
        (moved, none) ∧
        moved.files.segments = [] ∧
        moved.files.manifest = repairedManifest now files ∧
        moved.files.snapshots = files.snapshots ∧
        (moved.files.wal = none ↔ files.wal = none) := by
  have moves :=
    @RepairState.moveSegments_sorted (beforeLog now files quarantine)
      (sortedFiles files.segments) (List.Sublist.refl _)
  rw [← map_file_reports] at moves
  refine ⟨_, moves, ?_, rfl, rfl, ?_⟩
  · rw [DataFiles.segments_removeSegments, map_file_reports]
    exact unlinkAll_all files.segments
  · simp [DataFiles.removeSegments, beforeLog]

/-- The log is started anew. -/
theorem finished_newLog
    {options : RepairOptions}
    {files : DataFiles}
    (unblocked :
      (planManifest (inspectDataDirectory files)).blocked = [])
    (uncovered : ¬ coversPrefix (inspectDataDirectory files))
    (ends :
      (inspectDataDirectory files).log.segments.take
          (truncationPoint (inspectDataDirectory files).log.segments
            (inspectDataDirectory files).log.damage).1 = [] ∨
        (inspectDataDirectory files).log.lastLsn <
          (inspectDataDirectory files).recovery.baseLsn)
    (granted :
      ∀ action ∈ planNewLog (inspectDataDirectory files),
        isAllowed action options = true)
    (now : JsString)
    (quarantine : List Quarantined) :
    Finished
        (RepairState.apply now options (beforeLog now files quarantine)
          (planNewLog (inspectDataDirectory files))) ↔
      ¬ Unfinished files := by
  have isBase :
      (inspectDataDirectory files).recovery.baseLsn = files.baseLsn := rfl
  obtain ⟨moved, moves, noSegments, sameManifest, sameSnapshots, sameWal⟩ :=
    run_moveAll now files quarantine
  have isUnfinished :
      Unfinished files ↔
        0 < files.baseLsn ∧
          (2 ^ 64 ≤ files.baseLsn + 1 ∨ files.wal = none ∨
            files.manifest = .missing ∧ files.segments = []) := by
    constructor
    · rintro (⟨covers, _⟩ | kept | ⟨_, positive, _, fails⟩)
      · exact absurd covers uncovered
      · rcases ends with nothing | lost
        · exact absurd nothing (kept_of_gapKept kept)
        · have reaches := kept.2.1
          rw [isBase] at lost
          omega
      · exact ⟨positive, fails⟩
    · rintro ⟨positive, fails⟩
      refine .inr (.inr ⟨uncovered, positive, ?_, fails⟩)
      rcases ends with nothing | lost
      · have isZero :
            (inspectDataDirectory files).log.lastLsn = 0 :=
          lastLsn_of_nothingKept files.distinct_segments nothing
        omega
      · exact lost
  rw [isUnfinished]
  unfold planNewLog at granted ⊢
  simp only [isBase] at granted ⊢
  rw [RepairState.apply, if_pos (granted _ List.mem_cons_self)]
  simp only [moves]
  by_cases positive : 0 < files.baseLsn
  · rw [if_pos positive] at granted ⊢
    rw [RepairState.apply_singleton (granted _ (by simp))]
    change Finished (moved.createSegment (files.baseLsn + 1)) ↔ _
    obtain ⟨fails, creates⟩ :=
      createSegment_empty noSegments (files.baseLsn + 1)
    rw [sameWal] at fails creates
    by_cases failing : 2 ^ 64 ≤ files.baseLsn + 1 ∨ files.wal = none
    · refine iff_of_false (fun finished => fails failing finished.1) ?_
      rw [not_not]
      exact ⟨positive, failing.imp_right .inl⟩
    · obtain ⟨wal, isWal, created⟩ := creates failing
      obtain ⟨small, present⟩ := not_or.mp failing
      obtain ⟨undamaged, firstLsn, lastLsn⟩ :=
        inspectLog_fresh (not_le.mp small)
      rw [created, @finished_iff files unblocked now
        { moved with files := { moved.files with wal := some wal } }
        sameManifest sameSnapshots
        [⟨files.baseLsn + 1, encodeSegmentHeader (files.baseLsn + 1)⟩] isWal,
        undamaged, firstLsn, lastLsn]
      simp only [ne_eq, List.cons_ne_nil, not_false_eq_true, and_true,
        Option.getD_some, le_refl, true_and, positive, small, present,
        false_or]
      refine and_iff_left ?_
      push_cast
      omega
  · rw [if_neg positive, RepairState.apply]
    refine iff_of_true ?_ (fun both => positive both.1)
    rw [@finished_iff files unblocked now _ sameManifest sameSnapshots []
      noSegments]
    refine ⟨fun both => both.2.2 rfl, rfl, ?_, ?_⟩
    · change 1 ≤ _
      omega
    · change (files.baseLsn : Int) ≤ 0
      omega

/-- A log that is cut is damaged: a shortfall alone would block the repair or
start the log anew. -/
theorem damaged_of_cut
    {files : DataFiles}
    (problem :
      (inspectDataDirectory files).log.damage ≠ none ∨
        hasLogShortfall (inspectDataDirectory files))
    (covered :
      (((inspectDataDirectory files).log.segments.take
        (truncationPoint (inspectDataDirectory files).log.segments
          (inspectDataDirectory files).log.damage).1).head?.bind
            SegmentReport.firstLsn).getD 0 ≤ files.baseLsn + 1)
    (reaches :
      (files.baseLsn : Int) ≤ (inspectDataDirectory files).log.lastLsn) :
    (inspectLog files.segments).damage ≠ none := by
  intro undamaged
  have isFound :=
    found (analyzeLoop none (sortedFiles files.segments))
  have fits := fits_analyzeLoop none (sortedFiles files.segments)
  have isFirst :
      (inspectLog files.segments).firstLsn =
        (summarizeLoop {}
          (analyzeLoop none (sortedFiles files.segments))).firstLsn := rfl
  have isDamage :
      (inspectLog files.segments).damage =
        (summarizeLoop {}
          (analyzeLoop none (sortedFiles files.segments))).damage := rfl
  change (((inspectLog files.segments).segments.take
    (truncationPoint (inspectLog files.segments).segments
      (inspectLog files.segments).damage).1).head?.bind _).getD 0 ≤ _
    at covered
  rw [undamaged] at covered isDamage
  simp only [truncationPoint, List.take_length] at covered
  have shortfall : files.baseLsn + 1 <
      (inspectLog files.segments).firstLsn.getD 1 := by
    rcases problem with damaged | compacted | lost
    · exact absurd undamaged damaged
    · exact compacted
    · change (inspectDataDirectory files).log.lastLsn < files.baseLsn at lost
      omega
  rw [isFirst] at shortfall
  change ((analyzeLoop none (sortedFiles files.segments)).head?.bind
    SegmentReport.firstLsn).getD 0 ≤ _ at covered
  generalize
    analyzeLoop none (sortedFiles files.segments) = reports at *
  revert shortfall isDamage isFound
  generalize summarizeLoop {} reports = summary
  intro isFound isDamage shortfall
  cases isFound with
  | refused front back segment reason splits passed isRefused =>
      cases isDamage
  | corrupt front back segment reason splits passed isCorrupt noGap =>
      cases isDamage
  | clean front tail splits passed isTail =>
      rw [splits] at fits covered
      have numbers :=
        (addAll_numbers
          (fun report member =>
            fits report (List.mem_append_left tail member))
          (fun report member => (passed report member).header) {}).2.1
      rw [numbers] at shortfall
      cases front with
      | nil =>
          simp at shortfall
      | cons report rest =>
          obtain ⟨first, _, isNumber, _⟩ :=
            (fits report (by simp)).usable
              (passed report List.mem_cons_self).header.1
              (passed report List.mem_cons_self).header.2
          simp [isNumber] at shortfall covered
          omega

/-- The first number that a cut log has is that of the first kept segment. -/
theorem DamagedAt.firstLsn_kept
    {segments early late : List SegmentFile}
    {file : SegmentFile}
    (distinct : (segments.map SegmentFile.nameLsn).Nodup)
    (isDamaged :
      DamagedAt (sortedFiles segments) (inspectLog segments) early file late)
    (noGap :
      ¬ CorruptBehindGap
        (reportSegment (lastReport none early) file late.isEmpty)) :
    (inspectLog segments).firstLsn =
      ((inspectLog segments).segments.take
        (SinterDb.truncationPoint (inspectLog segments).segments
          (inspectLog segments).damage).1).head?.bind
            SegmentReport.firstLsn := by
  have fits :
      ∀ report ∈ innerReports none early, Fits report := by
    rw [← analyzeLoop_passed isDamaged.passed]
    exact fits_analyzeLoop none early
  have header :
      ∀ report ∈ innerReports none early,
        report.status ≠ .badHeader ∧ report.status ≠ .incompleteHeader :=
    fun report member => (isDamaged.passed report member).header
  have size := length_innerReports none early
  rw [isDamaged.numbers.1, isDamaged.truncationPoint distinct,
    isDamaged.reports]
  by_cases corrupt :
      (reportSegment (lastReport none early) file late.isEmpty).status =
        .corrupt
  · have gap :
        (reportSegment (lastReport none early) file late.isEmpty).gap =
          none :=
      not_not.mp fun gap => noGap ⟨corrupt, gap⟩
    have numbers :=
      (@addAll_numbers
        (innerReports none early ++
          [reportSegment (lastReport none early) file late.isEmpty])
        (List.forall_mem_append.mpr
          ⟨fits, by simpa using fits_reportSegment _ _ _⟩)
        (List.forall_mem_append.mpr
          ⟨header, by simp [corrupt]⟩) {}).2.1
    have takes :
        ∀ back : List SegmentReport,
          (innerReports none early ++
            reportSegment (lastReport none early) file late.isEmpty ::
              back).take (early.length + 1) =
            innerReports none early ++
              [reportSegment (lastReport none early) file
                late.isEmpty] := by
      intro back
      rw [← size]
      simp [List.take_append]
    rw [if_pos ⟨corrupt, gap⟩, if_pos corrupt, numbers]
    simp only [takes]
    rfl
  · have numbers := (addAll_numbers fits header {}).2.1
    rw [if_neg fun both => corrupt both.1, if_neg corrupt, numbers]
    simp [← size]

/-- The log is cut. -/
theorem finished_cut
    {files : DataFiles}
    (unblocked :
      (planManifest (inspectDataDirectory files)).blocked = [])
    (uncovered : ¬ coversPrefix (inspectDataDirectory files))
    (problem :
      (inspectDataDirectory files).log.damage ≠ none ∨
        hasLogShortfall (inspectDataDirectory files))
    (covered :
      (((inspectDataDirectory files).log.segments.take
        (truncationPoint (inspectDataDirectory files).log.segments
          (inspectDataDirectory files).log.damage).1).head?.bind
            SegmentReport.firstLsn).getD 0 ≤ files.baseLsn + 1)
    (reaches :
      (files.baseLsn : Int) ≤ (inspectDataDirectory files).log.lastLsn)
    (now : JsString)
    (quarantine : List Quarantined) :
    Finished
        ((beforeLog now files quarantine).run now
          (planCut (inspectDataDirectory files)
            (truncationPoint (inspectDataDirectory files).log.segments
              (inspectDataDirectory files).log.damage).1
            (truncationPoint (inspectDataDirectory files).log.segments
              (inspectDataDirectory files).log.damage).2).step) ↔
      ¬ Unfinished files := by
  have damaged := damaged_of_cut problem covered reaches
  obtain ⟨damage, isDamage⟩ := Option.ne_none_iff_exists'.mp damaged
  obtain ⟨early, file, late, isDamaged⟩ := damagedAt_of_damage damaged
  obtain ⟨left, runs, truncated⟩ :=
    @DamagedAt.truncated (beforeLog now files quarantine) early late file
      isDamaged _ _ rfl now
  obtain ⟨isCut, sameNumbers⟩ := isDamaged.inspectLog_kept truncated.kept
  have present : files.segments ≠ [] := by
    intro nothing
    rw [nothing] at damaged
    exact damaged rfl
  have isUnfinished :
      Unfinished files ↔
        CorruptBehindGap
          (reportSegment (lastReport none early) file late.isEmpty) := by
    constructor
    · rintro (⟨covers, _⟩ | ⟨_, _, other, segment, isOther, member, isNamed,
        behindGap⟩ | ⟨_, _, lost, _⟩)
      · exact absurd covers uncovered
      · rw [← isDamaged.segment_eq files.distinct_segments isOther member
          isNamed]
        exact behindGap
      · omega
    · intro behindGap
      obtain ⟨other, isOther, isNamed, _⟩ := isDamaged.named
      refine .inr (.inl ⟨uncovered, reaches, other, _, isOther, ?_, ?_,
        behindGap⟩)
      · change _ ∈ (inspectLog files.segments).segments
        rw [isDamaged.reports]
        simp
      · rw [isNamed]
        exact (analyzeSegment_numbers file late.isEmpty true).1
  change Finished ((beforeLog now files quarantine).run now
    (.truncateLog (((inspectLog files.segments).segments.drop
      (truncationPoint (inspectLog files.segments).segments
        (inspectLog files.segments).damage).1).map SegmentReport.file)
      (truncationPoint (inspectLog files.segments).segments
        (inspectLog files.segments).damage).2)) ↔ _
  have isRun :
      (beforeLog now files quarantine).run now
          (.truncateLog (((inspectLog files.segments).segments.drop
            (truncationPoint (inspectLog files.segments).segments
              (inspectLog files.segments).damage).1).map SegmentReport.file)
            (truncationPoint (inspectLog files.segments).segments
              (inspectLog files.segments).damage).2) = (left, none) :=
    runs
  rw [isRun, isUnfinished, ← isCut,
    finished_iff unblocked truncated.manifest truncated.snapshots rfl]
  constructor
  · rintro ⟨_, undamaged, _⟩
    exact undamaged
  · intro undamaged
    obtain ⟨sameFirst, sameLast⟩ := sameNumbers undamaged
    refine ⟨fun both => present both.2.1, undamaged, ?_, ?_⟩
    · have isFirst :=
        isDamaged.firstLsn_kept files.distinct_segments (isCut.mp undamaged)
      rw [sameFirst, isFirst]
      change (((inspectLog files.segments).segments.take _).head?.bind
        _).getD 1 ≤ _
      change (((inspectLog files.segments).segments.take
        (truncationPoint (inspectLog files.segments).segments
          (inspectLog files.segments).damage).1).head?.bind _).getD 0 ≤ _
        at covered
      cases number :
          ((inspectLog files.segments).segments.take
            (truncationPoint (inspectLog files.segments).segments
              (inspectLog files.segments).damage).1).head?.bind
                SegmentReport.firstLsn with
      | none =>
          simp
      | some first =>
          rw [number] at covered
          exact covered
    · rw [sameLast]
      exact reaches

/--
If nothing blocks the repair and every option that it asks for is given, one
run makes the directory recoverable, except in three kinds of directories.
-/
theorem repair_finished_iff
    (now : JsString)
    (lock : Option LockDescription)
    (options : RepairOptions)
    (files : DataFiles)
    (unblocked :
      (planRepair (inspectDataDirectory files) lock options).blocked = [])
    (granted :
      ∀ action ∈
          (planRepair (inspectDataDirectory files) lock options).planned,
        isAllowed action options = true) :
    Finished (repairDataDirectory now lock options files) ↔
      ¬ Unfinished files := by
  obtain ⟨quarantine, isRepair⟩ := repairDataDirectory_eq granted now
  rw [isRepair]
  unfold planRepair at unblocked granted
  simp only [List.append_eq_nil_iff] at unblocked
  obtain ⟨⟨manifest, log⟩, _⟩ := unblocked
  have grantedLog :
      ∀ action ∈ (planLog (inspectDataDirectory files)).planned,
        isAllowed action options = true := by
    intro action member
    exact granted action (by simp [member])
  have plan := logPlan files
  revert log grantedLog plan
  generalize planLog (inspectDataDirectory files) = logActions
  intro log grantedLog plan
  cases plan with
  | nothing undamaged reaches =>
      obtain ⟨finished, complete⟩ :=
        finished_nothing manifest undamaged reaches now quarantine
      exact iff_of_true finished complete
  | quarantine covers =>
      rw [RepairState.apply_singleton
        (grantedLog _ (List.mem_singleton_self _))]
      exact finished_quarantine manifest covers now quarantine
  | blocked reason =>
      cases log
  | newLog uncovered ends =>
      exact finished_newLog manifest uncovered ends grantedLog now quarantine
  | cut uncovered problem covered reaches =>
      rw [RepairState.apply_singleton
        (grantedLog _ (List.mem_singleton_self _))]
      exact finished_cut manifest uncovered problem covered reaches now
        quarantine

/-- Every option of the repair is given. -/
def everyOption : RepairOptions where
  rebuildManifest := true
  clearLock := true
  allowDataLoss := true

/-- A log of one record, and a segment that does not follow on. -/
def disconnectedLog (later : Bytes) : DataFiles where
  root := utf16 "data"
  manifest :=
    .object ⟨.text storageFormat, .integer 2, .absent, .absent, .absent⟩
  snapshots := []
  wal :=
    some
      { segments :=
          [⟨1, encodeSegmentHeader 1 ++ recordBytes 1 1 [7]⟩,
            ⟨5, encodeSegmentHeader 5 ++ later⟩]
        otherNames := []
        distinct := by simp }

/-- A disconnected segment without damage is moved away. -/
theorem repair_finished_iff_disconnected :
    Finished
        (repairDataDirectory (utf16 "") none everyOption
          (disconnectedLog [])) ∧
      ¬ Unfinished (disconnectedLog []) := by
  have finished :
      Finished
        (repairDataDirectory (utf16 "") none everyOption
          (disconnectedLog [])) := by
    constructor
    · decide +kernel
    · decide +kernel
  refine ⟨finished, ?_⟩
  refine (repair_finished_iff (utf16 "") none everyOption (disconnectedLog [])
    ?_ ?_).mp finished
  · decide +kernel
  · decide +kernel

/-- A disconnected segment with a damaged record is cut and kept, and the
directory is not recoverable. -/
theorem not_finished_disconnected :
    (planRepair (inspectDataDirectory (disconnectedLog (List.replicate 30 1)))
        none everyOption).blocked = [] ∧
      (∀ action ∈
          (planRepair
            (inspectDataDirectory (disconnectedLog (List.replicate 30 1)))
            none everyOption).planned,
        isAllowed action everyOption = true) ∧
      ¬ Finished
        (repairDataDirectory (utf16 "") none everyOption
          (disconnectedLog (List.replicate 30 1))) := by
  refine ⟨by decide +kernel, by decide +kernel, ?_⟩
  rintro ⟨_, recoverable⟩
  revert recoverable
  decide +kernel

end SinterDb
