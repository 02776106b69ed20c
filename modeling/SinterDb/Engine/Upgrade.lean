import SinterDb.Engine.Manifest

namespace SinterDb

open Unicode

/-!
# Upgrades over many openings

Builds open a directory one after the other, each with its own plan, and any
of them may stop at any point inside `prepareManifest`.
-/

/-- A call of `prepareManifest`; `stop` is the number of effects after which
the process stops, if it does. -/
structure Opening where
  plan : MigrationPlan
  createdNow : JsString
  upgradedNow : JsString
  stop : Option Nat
  leavesTemporary : Bool
  deriving Repr, DecidableEq

namespace Opening

/-- Everything that the call would do. -/
def planned
    (opening : Opening)
    (directory : DataDirectory) : List ManifestEffect × Except Thrown Unit :=
  prepareManifest opening.plan opening.createdNow opening.upgradedNow directory

/-- What the call does before the process stops. -/
def effects
    (opening : Opening)
    (directory : DataDirectory) : List ManifestEffect :=
  match opening.stop with
  | none => (opening.planned directory).1
  | some count => (opening.planned directory).1.take count

/-- The call has done all it had to do. -/
def Finishes (opening : Opening) (directory : DataDirectory) : Prop :=
  (opening.planned directory).2 = .ok () ∧
    opening.effects directory = (opening.planned directory).1

instance (opening : Opening) (directory : DataDirectory) :
    Decidable (opening.Finishes directory) :=
  inferInstanceAs (Decidable (_ ∧ _))

/-- The directory that the call leaves; the log has files once it is open. -/
def after (opening : Opening) (directory : DataDirectory) : DataDirectory :=
  let done := directory.applyAll (opening.effects directory)
  { done with
    temporary := done.temporary || opening.stop.isSome && opening.leavesTemporary
    hasLogData :=
      done.hasLogData || decide (opening.Finishes directory) }

/-- A rewriting step is started, with the directory as it is then. -/
def Starts
    (opening : Opening)
    (directory : DataDirectory)
    (step : Migration)
    (during : DataDirectory) : Prop :=
  ∃ before later,
    opening.effects directory = before ++ .runStep step :: later ∧
      during = directory.applyAll before

end Opening

/-- The directory after some openings. -/
def DataDirectory.run
    (directory : DataDirectory)
    (openings : List Opening) : DataDirectory :=
  openings.foldl (fun directory opening => opening.after directory) directory

/-- The version that an upgrade starts from, or did start from. -/
def Manifest.start (manifest : Manifest) : Nat :=
  manifest.migratingFrom.getD manifest.formatVersion

/-- A manifest as builds write it. -/
def Manifest.Sensible (manifest : Manifest) : Prop :=
  ∀ version, manifest.migratingFrom = some version →
    1 ≤ version ∧ version < manifest.formatVersion

/-- A directory without a manifest, or with one that a build wrote. -/
def DataDirectory.Recorded (directory : DataDirectory) : Prop :=
  ∀ file, directory.manifest = some file →
    ∃ manifest : Manifest, file = manifest.file ∧ manifest.Sensible

/-- An unfinished upgrade is not taken over by a build with a higher target,
unless nothing is rewritten. -/
def Opening.ResumesOwn
    (opening : Opening)
    (directory : DataDirectory) : Prop :=
  ∀ manifest : Manifest, directory.manifest = some manifest.file →
    ∀ start, manifest.migratingFrom = some start →
      manifest.formatVersion < opening.plan.targetVersion →
        ∀ steps, planMigrations start opening.plan = .ok steps →
          steps.any Migration.rewrites = false

/-- The steps of a plan follow one another from version to version. -/
theorem planSteps_ok
    {plan : MigrationPlan}
    {start count version : Nat}
    {steps : List Migration}
    (plans : planSteps plan start count version = .ok steps) :
    steps.map Migration.fromVersion = List.range' version count ∧
      ∀ step ∈ steps, step ∈ plan.migrations ∧
        step.toVersion = step.fromVersion + 1 := by
  induction count generalizing version steps with
  | zero =>
      obtain rfl := Except.ok.inj plans
      simp
  | succ count inductionHypothesis =>
      rw [planSteps] at plans
      split at plans
      · cases plans
      · rename_i step found
        obtain ⟨next, plans⟩ := Result.else_of_ok plans
        obtain ⟨later, plansLater, same⟩ := Result.bind_eq_ok.mp plans
        obtain rfl := Except.ok.inj same
        obtain ⟨versions, steps⟩ := inductionHypothesis plansLater
        have isFrom : step.fromVersion = version := by
          simpa using List.find?_some found
        have isNext : step.toVersion = version + 1 := by simpa using next
        refine ⟨?_, List.forall_mem_cons.mpr ⟨?_, steps⟩⟩
        · rw [List.map_cons, isFrom, versions, List.range'_succ]
        · exact ⟨List.mem_of_find?_eq_some found, by rw [isFrom, isNext]⟩

/-- A plan without problems has a step from every version. -/
theorem exists_step_of_valid
    {plan : MigrationPlan}
    (valid : validateMigrations plan = [])
    {version : Nat}
    (positive : 1 ≤ version)
    (below : version < plan.targetVersion) :
    ∃ step ∈ plan.migrations, step.fromVersion = version := by
  obtain ⟨-, complete⟩ := List.append_eq_nil_iff.mp valid
  rw [List.map_eq_nil_iff, List.filter_eq_nil_iff] at complete
  have present :=
    complete version (List.mem_range'_1.mpr ⟨positive, by omega⟩)
  simpa using present

/-- The steps of a plan without problems go up by one version. -/
theorem toVersion_of_valid
    {plan : MigrationPlan}
    (valid : validateMigrations plan = []) :
    ∀ step ∈ plan.migrations, step.toVersion = step.fromVersion + 1 := by
  obtain ⟨none, -⟩ := List.append_eq_nil_iff.mp valid
  have goesUp :
      ∀ (steps : List Migration) (seen : List Nat),
        stepsProblems seen steps = [] →
          ∀ step ∈ steps, step.toVersion = step.fromVersion + 1 := by
    intro steps
    induction steps with
    | nil =>
        simp
    | cons step rest inductionHypothesis =>
        intro seen noProblems
        obtain ⟨own, later⟩ := List.append_eq_nil_iff.mp noProblems
        rw [List.forall_mem_cons]
        refine ⟨?_, inductionHypothesis _ later⟩
        by_contra skips
        simp [stepProblems, skips] at own
  exact goesUp plan.migrations [] none

/-- A plan without problems has the steps from every version. -/
theorem planSteps_of_valid
    {plan : MigrationPlan}
    (valid : validateMigrations plan = [])
    {start count version : Nat}
    (positive : 1 ≤ version)
    (within : version + count ≤ plan.targetVersion) :
    ∃ steps, planSteps plan start count version = .ok steps := by
  induction count generalizing version with
  | zero =>
      exact ⟨[], rfl⟩
  | succ count inductionHypothesis =>
      obtain ⟨later, plansLater⟩ :=
        @inductionHypothesis (version + 1) (by omega) (by omega)
      obtain ⟨step, member, isFrom⟩ :=
        exists_step_of_valid valid positive (by omega)
      rw [planSteps]
      cases found :
          plan.migrations.find? fun step => step.fromVersion == version with
      | none =>
          have absent := List.find?_eq_none.mp found step member
          simp [isFrom] at absent
      | some first =>
          have isVersion : first.fromVersion = version := by
            simpa using List.find?_some found
          have next :=
            toVersion_of_valid valid first (List.mem_of_find?_eq_some found)
          simp only
          rw [if_neg (by omega), plansLater]
          exact ⟨first :: later, rfl⟩

section Prepare

variable
  {directory : DataDirectory}
  {opening : Opening}

/-- A manifest of a newer build is refused. -/
theorem readManifest_newer
    {manifest : Manifest}
    (directory : DataDirectory)
    {target : Nat}
    (newer : target < manifest.formatVersion) :
    ∃ message,
      readManifest directory target manifest.file =
        .error (unsupportedFormat message) := by
  obtain ⟨version, createdAt, upgradedFrom, upgradedAt, migratingFrom⟩ :=
    manifest
  obtain ⟨below, rfl⟩ : ∃ below, version = below + 1 :=
    ⟨version - 1, by simp only at newer; omega⟩
  have format : ¬ ManifestField.text storageFormat ≠ .text storageFormat := by
    simp
  unfold readManifest Manifest.file readFormatVersion
  simp only [if_neg format]
  rw [if_pos newer]
  exact ⟨_, rfl⟩

/-- A manifest that a build wrote is read back, unless it is newer. -/
theorem readManifest_file
    {manifest : Manifest}
    (sensible : manifest.Sensible)
    (directory : DataDirectory)
    {target : Nat}
    (positive : 1 ≤ manifest.formatVersion)
    (notNewer : manifest.formatVersion ≤ target) :
    readManifest directory target manifest.file =
      .ok ⟨manifest.formatVersion, some manifest.createdAt,
        manifest.migratingFrom⟩ := by
  obtain ⟨version, createdAt, upgradedFrom, upgradedAt, migratingFrom⟩ :=
    manifest
  simp only at positive notNewer
  obtain ⟨below, rfl⟩ : ∃ below, version = below + 1 :=
    ⟨version - 1, by omega⟩
  have format : ¬ ManifestField.text storageFormat ≠ .text storageFormat := by
    simp
  have reads :
      readFormatVersion directory target (.text storageFormat)
        (.integer ((below + 1 : Nat) : Int)) = .ok (below + 1) := by
    unfold readFormatVersion
    rw [if_neg format]
    change (if target < below + 1 then _ else _) = _
    rw [if_neg (by omega)]
  have interrupted :
      readInterruptedUpgrade directory.path target
        (.ofVersion migratingFrom) = .ok migratingFrom := by
    cases migratingFrom with
    | none =>
        rfl
    | some start =>
        have bounds := sensible start rfl
        simp only at bounds
        change (if start < 1 ∨ target ≤ start then _ else _) = _
        rw [if_neg (by omega)]
  unfold readManifest Manifest.file
  simp only
  rw [reads]
  simp only [Result.ok_bind]
  rw [interrupted]
  rfl

/-- A manifest without a version is refused. -/
theorem readManifest_zero
    {manifest : Manifest}
    (directory : DataDirectory)
    (target : Nat)
    (noVersion : manifest.formatVersion = 0) :
    ∃ error, readManifest directory target manifest.file = .error error := by
  have format : ¬ ManifestField.text storageFormat ≠ .text storageFormat := by
    simp
  unfold readManifest Manifest.file readFormatVersion
  simp only [if_neg format, noVersion]
  exact ⟨_, rfl⟩

/-- What a call can have to do. -/
inductive Prepares
    (opening : Opening)
    (directory : DataDirectory) :
    List ManifestEffect × Except Thrown Unit → Prop where
  | idle
      (result : Except Thrown Unit)
      (settled :
        result = .ok () →
          ∀ manifest : Manifest, directory.manifest = some manifest.file →
            manifest.migratingFrom = none) :
      Prepares opening directory ([.removeTemporary], result)
  | creates
      (absent : directory.manifest = none) :
      Prepares opening directory
        ([.removeTemporary, .writeManifest
          { formatVersion := opening.plan.targetVersion
            createdAt := opening.createdNow }], .ok ())
  | upgrades
      (manifest : Manifest)
      (isManifest : directory.manifest = some manifest.file)
      (positive : 1 ≤ manifest.start)
      (notNewer : manifest.formatVersion ≤ opening.plan.targetVersion)
      (starts : manifest.start < opening.plan.targetVersion)
      (steps : List Migration)
      (plans : planMigrations manifest.start opening.plan = .ok steps) :
      Prepares opening directory
        (.removeTemporary ::
          upgradeEffects opening.plan.targetVersion manifest.start
            manifest.createdAt opening.upgradedNow manifest.migratingFrom
            steps, .ok ())

/-- A manifest is determined by its file, as far as upgrades look at it. -/
theorem migratingFrom_of_file
    {left right : Manifest}
    (same : left.file = right.file) :
    left.migratingFrom = right.migratingFrom ∧
      left.formatVersion = right.formatVersion ∧
      left.createdAt = right.createdAt := by
  unfold Manifest.file at same
  obtain ⟨-, versions, texts, fields⟩ := ManifestFile.parsed.inj same
  refine ⟨?_, by simpa using versions, by simpa using texts⟩
  cases leftFrom : left.migratingFrom with
  | none =>
      cases rightFrom : right.migratingFrom with
      | none =>
          rfl
      | some version =>
          simp [leftFrom, rightFrom, ManifestField.ofVersion] at fields
  | some version =>
      cases rightFrom : right.migratingFrom with
      | none =>
          simp [leftFrom, rightFrom, ManifestField.ofVersion] at fields
      | some other =>
          simp only [leftFrom, rightFrom, ManifestField.ofVersion,
            ManifestField.integer.injEq, Nat.cast_inj] at fields
          rw [fields]

/-- A call does one of these things. -/
theorem prepares
    (recorded : directory.Recorded)
    (opening : Opening) :
    Prepares opening directory (opening.planned directory) := by
  unfold Opening.planned prepareManifest prepareFile
  cases isManifest : directory.manifest with
  | none =>
      simp only
      split_ifs
      · exact .idle _ (by simp)
      · exact .creates isManifest
  | some file =>
      obtain ⟨manifest, rfl, sensible⟩ := recorded file isManifest
      rcases Nat.lt_or_ge opening.plan.targetVersion manifest.formatVersion
        with newer | notNewer
      · obtain ⟨message, refuses⟩ := readManifest_newer directory newer
        simp only [refuses]
        exact .idle _ (by simp)
      rcases Nat.eq_zero_or_pos manifest.formatVersion with
        noVersion | positive
      · obtain ⟨error, refuses⟩ :=
          readManifest_zero directory opening.plan.targetVersion noVersion
        simp only [refuses]
        exact .idle _ (by simp)
      · simp only [readManifest_file sensible directory positive notNewer,
          Option.getD_some]
        split_ifs with done
        · refine .idle _ ?_
          intro _ other isOther
          rw [isManifest] at isOther
          obtain ⟨same, -, -⟩ :=
            migratingFrom_of_file (Option.some.inj isOther)
          rw [← same, done.2]
        · have starts :
              1 ≤ manifest.start ∧
                manifest.start < opening.plan.targetVersion := by
            unfold Manifest.start
            cases from? : manifest.migratingFrom with
            | none =>
                simp only [from?, Option.getD_none, and_true] at done ⊢
                omega
            | some version =>
                have := sensible version from?
                simp only [Option.getD_some]
                omega
          cases plans : planMigrations manifest.start opening.plan with
          | error error =>
              have same :
                  planMigrations
                      (manifest.migratingFrom.getD manifest.formatVersion)
                      opening.plan = .error error := plans
              simp only [same]
              exact .idle _ (by simp)
          | ok steps =>
              have same :
                  planMigrations
                      (manifest.migratingFrom.getD manifest.formatVersion)
                      opening.plan = .ok steps := plans
              simp only [same]
              exact .upgrades manifest isManifest starts.1 notNewer starts.2
                steps plans

/-- Effects that do not write the manifest keep it. -/
theorem applyAll_manifest
    {effects : List ManifestEffect}
    (noWrites : ∀ manifest, ManifestEffect.writeManifest manifest ∉ effects) :
    (directory.applyAll effects).manifest = directory.manifest := by
  unfold DataDirectory.applyAll
  induction effects generalizing directory with
  | nil =>
      rfl
  | cons effect rest inductionHypothesis =>
      rw [List.foldl_cons, inductionHypothesis fun manifest member =>
        noWrites manifest (List.mem_cons_of_mem _ member)]
      cases effect with
      | writeManifest manifest =>
          exact absurd List.mem_cons_self (noWrites manifest)
      | _ =>
          rfl

/-- The steps of an upgrade do not write the manifest. -/
theorem writeManifest_not_mem_steps
    (steps : List Migration)
    (manifest : Manifest) :
    ManifestEffect.writeManifest manifest ∉ steps.flatMap stepEffects := by
  intro member
  obtain ⟨step, -, isEffect⟩ := List.mem_flatMap.mp member
  unfold stepEffects at isEffect
  split_ifs at isEffect <;> simp at isEffect

/-- Only rewriting steps are run. -/
theorem runStep_mem_steps
    {steps : List Migration}
    {step : Migration}
    (member : ManifestEffect.runStep step ∈ steps.flatMap stepEffects) :
    steps.any Migration.rewrites = true := by
  obtain ⟨other, inSteps, isEffect⟩ := List.mem_flatMap.mp member
  refine List.any_eq_true.mpr ⟨other, inSteps, ?_⟩
  by_contra keeps
  simp [stepEffects, keeps] at isEffect

/-- A list that ends with one item, split before its end. -/
theorem front_of_snoc
    {α : Type}
    {items front back : List α}
    {last : α}
    (isSplit : items ++ [last] = front ++ back)
    (more : back ≠ []) :
    ∃ rest, items = front ++ rest ∧ back = rest ++ [last] := by
  rcases List.eq_nil_or_concat back with none | ⟨rest, final, isBack⟩
  · exact absurd none more
  · rw [List.concat_eq_append] at isBack
    rw [isBack, ← List.append_assoc] at isSplit
    obtain ⟨same, isLast⟩ := List.append_inj' isSplit rfl
    refine ⟨rest, same, ?_⟩
    rw [isBack, List.cons.inj isLast |>.1]

/-- The manifest that marks an upgrade. -/
def markedManifest (target start : Nat) (createdAt : JsString) : Manifest where
  formatVersion := target
  createdAt := createdAt
  migratingFrom := some start

/-- The manifest that records an upgrade as finished. -/
def finishedManifest
    (target start : Nat)
    (createdAt upgradedAt : JsString) : Manifest where
  formatVersion := target
  createdAt := createdAt
  upgradedFrom := some start
  upgradedAt := some upgradedAt

section Effects

variable
  {target start : Nat}
  {createdAt upgradedAt : JsString}
  {interrupted : Option Nat}
  {steps : List Migration}
  {front back : List ManifestEffect}

/-- Until it is finished, an upgrade leaves the manifest as it is or marks
it. -/
theorem applyAll_upgrade
    (isSplit :
      upgradeEffects target start createdAt upgradedAt interrupted steps =
        front ++ back)
    (more : back ≠ [])
    (directory : DataDirectory) :
    ((directory.applyAll front).manifest = directory.manifest ∧
        (steps.any Migration.rewrites = true → interrupted = none →
          front = [])) ∨
      interrupted = none ∧
        (directory.applyAll front).manifest =
          some (markedManifest target start createdAt).file := by
  have keeps :
      ∀ (rest : List ManifestEffect) (directory : DataDirectory)
          (front : List ManifestEffect),
        steps.flatMap stepEffects = front ++ rest →
          (directory.applyAll front).manifest = directory.manifest := by
    intro rest directory front isFront
    refine applyAll_manifest fun manifest member => ?_
    refine writeManifest_not_mem_steps steps manifest ?_
    rw [isFront]
    exact List.mem_append_left _ member
  unfold upgradeEffects at isSplit
  by_cases marks :
      (steps.any Migration.rewrites && interrupted.isNone) = true
  · rw [if_pos marks] at isSplit
    cases front with
    | nil =>
        exact .inl ⟨rfl, fun _ _ => rfl⟩
    | cons first front =>
        obtain ⟨rfl, later⟩ := List.cons.inj isSplit
        obtain ⟨rest, isFront, -⟩ := front_of_snoc later more
        refine .inr ⟨by simpa using (Bool.and_eq_true_iff.mp marks).2, ?_⟩
        exact keeps rest _ front isFront
  · rw [if_neg marks] at isSplit
    obtain ⟨rest, isFront, -⟩ := front_of_snoc isSplit more
    refine .inl ⟨keeps rest directory front isFront, ?_⟩
    intro rewrites noStart
    exact absurd (by simp [rewrites, noStart]) marks

/-- A rewriting step comes after the mark. -/
theorem rewrites_of_runStep
    {step : Migration}
    (member :
      .runStep step ∈
        upgradeEffects target start createdAt upgradedAt interrupted steps) :
    steps.any Migration.rewrites = true := by
  unfold upgradeEffects at member
  rcases List.mem_append.mp member with inMark | inRest
  · split_ifs at inMark <;> simp at inMark
  · rcases List.mem_append.mp inRest with inSteps | isLast
    · exact runStep_mem_steps inSteps
    · simp at isLast

/-- At the end of an upgrade the manifest records it. -/
theorem applyAll_upgradeEffects
    (directory : DataDirectory) :
    (directory.applyAll (upgradeEffects target start createdAt upgradedAt
        interrupted steps)).manifest =
      some (finishedManifest target start createdAt upgradedAt).file := by
  unfold upgradeEffects DataDirectory.applyAll
  rw [← List.append_assoc, List.foldl_append]
  rfl

end Effects

/-- A call does a front part of what it would do. -/
theorem effects_split
    (opening : Opening)
    (directory : DataDirectory) :
    ∃ back,
      (opening.planned directory).1 = opening.effects directory ++ back := by
  unfold Opening.effects
  cases opening.stop with
  | none =>
      exact ⟨[], by simp⟩
  | some count =>
      exact ⟨_, (List.take_append_drop count _).symm⟩

/-- The manifest records at least a version. -/
def DataDirectory.AtLeast (directory : DataDirectory) (version : Nat) : Prop :=
  ∃ manifest : Manifest, directory.manifest = some manifest.file ∧
    version ≤ manifest.formatVersion

/-- The manifest records an unfinished upgrade. -/
def DataDirectory.Pending
    (directory : DataDirectory)
    (start target : Nat) : Prop :=
  ∃ manifest : Manifest, directory.manifest = some manifest.file ∧
    manifest.migratingFrom = some start ∧ manifest.formatVersion = target

/-- The manifests that a call can leave, at any point inside it. -/
inductive Leaves
    (opening : Opening)
    (directory : DataDirectory)
    (complete : Prop) : Option ManifestFile → Prop where
  | same :
      Leaves opening directory complete directory.manifest
  | created
      (absent : directory.manifest = none) :
      Leaves opening directory complete
        (some ({ formatVersion := opening.plan.targetVersion
                 createdAt := opening.createdNow } : Manifest).file)
  | marked
      (manifest : Manifest)
      (isManifest : directory.manifest = some manifest.file)
      (fresh : manifest.migratingFrom = none)
      (positive : 1 ≤ manifest.start)
      (notNewer : manifest.formatVersion ≤ opening.plan.targetVersion)
      (starts : manifest.start < opening.plan.targetVersion) :
      Leaves opening directory complete
        (some (markedManifest opening.plan.targetVersion manifest.start
          manifest.createdAt).file)
  | finished
      (isComplete : complete)
      (manifest : Manifest)
      (isManifest : directory.manifest = some manifest.file)
      (notNewer : manifest.formatVersion ≤ opening.plan.targetVersion) :
      Leaves opening directory complete
        (some (finishedManifest opening.plan.targetVersion manifest.start
          manifest.createdAt opening.upgradedNow).file)

/-- The manifest at any point inside a call. -/
theorem leaves_front
    (recorded : directory.Recorded)
    (opening : Opening)
    {front back : List ManifestEffect}
    (isSplit : (opening.planned directory).1 = front ++ back) :
    Leaves opening directory
      ((opening.planned directory).2 = .ok () ∧ back = [])
      (directory.applyAll front).manifest := by
  have prepared := prepares recorded opening
  generalize opening.planned directory = planned at prepared isSplit
  cases front with
  | nil =>
      exact .same
  | cons first front =>
      cases prepared with
      | idle result settled =>
          obtain ⟨rfl, nothing⟩ := List.cons.inj isSplit
          obtain ⟨rfl, -⟩ := List.append_eq_nil_iff.mp nothing.symm
          exact .same
      | creates absent =>
          obtain ⟨rfl, later⟩ := List.cons.inj isSplit
          cases front with
          | nil =>
              exact .same
          | cons second front =>
              obtain ⟨rfl, nothing⟩ := List.cons.inj later
              obtain ⟨rfl, -⟩ := List.append_eq_nil_iff.mp nothing.symm
              exact .created absent
      | upgrades manifest isManifest positive notNewer starts steps plans =>
          obtain ⟨rfl, later⟩ := List.cons.inj isSplit
          by_cases more : back = []
          · subst more
            replace later := later.trans (List.append_nil front)
            have isAfter :
                (directory.applyAll (.removeTemporary :: front)).manifest =
                  some (finishedManifest opening.plan.targetVersion
                    manifest.start manifest.createdAt
                    opening.upgradedNow).file := by
              rw [← later]
              exact applyAll_upgradeEffects _
            rw [isAfter]
            exact .finished ⟨rfl, rfl⟩ manifest isManifest notNewer
          · rcases applyAll_upgrade later more
              (directory.apply .removeTemporary) with
                ⟨keeps, -⟩ | ⟨fresh, marks⟩
            · have isAfter :
                  (directory.applyAll (.removeTemporary :: front)).manifest =
                    directory.manifest := keeps
              rw [isAfter]
              exact .same
            · have isAfter :
                  (directory.applyAll (.removeTemporary :: front)).manifest =
                    some (markedManifest opening.plan.targetVersion
                      manifest.start manifest.createdAt).file := marks
              rw [isAfter]
              exact .marked manifest isManifest fresh positive notNewer starts

/-- The manifest after a call. -/
theorem leaves_after
    (recorded : directory.Recorded)
    (opening : Opening) :
    Leaves opening directory (opening.Finishes directory)
      (opening.after directory).manifest := by
  obtain ⟨back, isSplit⟩ := effects_split opening directory
  have left := leaves_front recorded opening isSplit
  have isAfter :
      (opening.after directory).manifest =
        (directory.applyAll (opening.effects directory)).manifest := rfl
  have isFinish :
      ((opening.planned directory).2 = .ok () ∧ back = []) =
        opening.Finishes directory := by
    refine propext (and_congr_right fun _ => ?_)
    rw [isSplit]
    simp
  rw [isAfter, ← isFinish]
  exact left

/-- Calls keep the directory in order. -/
theorem recorded_after
    (recorded : directory.Recorded)
    (opening : Opening) :
    (opening.after directory).Recorded := by
  intro file isFile
  have left := leaves_after recorded opening
  rw [isFile] at left
  generalize isSome : some file = left? at left
  cases left with
  | same =>
      exact recorded file isSome.symm
  | created absent =>
      exact ⟨_, Option.some.inj isSome, by simp [Manifest.Sensible]⟩
  | marked manifest isManifest fresh positive notNewer starts =>
      refine ⟨_, Option.some.inj isSome, ?_⟩
      intro version isVersion
      obtain rfl := Option.some.inj isVersion
      exact ⟨positive, starts⟩
  | finished isComplete manifest isManifest notNewer =>
      refine ⟨_, Option.some.inj isSome, ?_⟩
      intro version isVersion
      cases isVersion

/-- Calls do not lower the version of the manifest. -/
theorem atLeast_after
    (recorded : directory.Recorded)
    {version : Nat}
    (atLeast : directory.AtLeast version)
    (opening : Opening) :
    (opening.after directory).AtLeast version := by
  obtain ⟨current, isCurrent, notBelow⟩ := atLeast
  have sameVersion :
      ∀ manifest : Manifest, directory.manifest = some manifest.file →
        version ≤ manifest.formatVersion := by
    intro manifest isManifest
    rw [isCurrent] at isManifest
    obtain ⟨-, same, -⟩ := migratingFrom_of_file (Option.some.inj isManifest)
    omega
  have left := leaves_after recorded opening
  unfold DataDirectory.AtLeast
  generalize (opening.after directory).manifest = left? at left
  cases left with
  | same =>
      exact ⟨current, isCurrent, notBelow⟩
  | created absent =>
      rw [isCurrent] at absent
      cases absent
  | marked manifest isManifest fresh positive notNewer starts =>
      exact ⟨_, rfl, (sameVersion manifest isManifest).trans notNewer⟩
  | finished isComplete manifest isManifest notNewer =>
      exact ⟨_, rfl, (sameVersion manifest isManifest).trans notNewer⟩

/-- An unfinished upgrade stays unfinished until a call finishes it. -/
theorem pending_after
    (recorded : directory.Recorded)
    {start version : Nat}
    (pending : directory.Pending start version)
    (unfinished : ¬ opening.Finishes directory) :
    (opening.after directory).Pending start version := by
  obtain ⟨current, isCurrent, isStart, isVersion⟩ := pending
  have left := leaves_after recorded opening
  unfold DataDirectory.Pending
  generalize (opening.after directory).manifest = left? at left
  cases left with
  | same =>
      exact ⟨current, isCurrent, isStart, isVersion⟩
  | created absent =>
      rw [isCurrent] at absent
      cases absent
  | marked manifest isManifest fresh positive notNewer starts =>
      rw [isCurrent] at isManifest
      obtain ⟨same, -⟩ := migratingFrom_of_file (Option.some.inj isManifest)
      rw [isStart, fresh] at same
      cases same
  | finished isComplete manifest isManifest notNewer =>
      exact absurd isComplete unfinished

/-- A build with a lower target is refused. -/
theorem planned_of_newer
    {version : Nat}
    (atLeast : directory.AtLeast version)
    (below : opening.plan.targetVersion < version) :
    ∃ message,
      opening.planned directory =
        ([.removeTemporary], .error (unsupportedFormat message)) := by
  obtain ⟨manifest, isManifest, notBelow⟩ := atLeast
  obtain ⟨message, refuses⟩ :=
    @readManifest_newer manifest directory opening.plan.targetVersion
      (by omega)
  refine ⟨message, ?_⟩
  unfold Opening.planned prepareManifest prepareFile
  simp only [isManifest, refuses]

/-- What a call has to have done when it finishes an upgrade. -/
structure RunsAllSteps
    (opening : Opening)
    (directory : DataDirectory)
    (start : Nat)
    (front : List ManifestEffect)
    (steps : List Migration)
    (createdAt : JsString) : Prop where
  effects :
    opening.effects directory =
      front ++ (steps.flatMap stepEffects ++
        [.writeManifest (finishedManifest opening.plan.targetVersion start
          createdAt opening.upgradedNow)])
  unfinished :
    ∀ manifest, ManifestEffect.writeManifest manifest ∈ front →
      manifest.migratingFrom = some start
  versions :
    steps.map Migration.fromVersion =
      List.range' start (opening.plan.targetVersion - start)
  own :
    ∀ step ∈ steps, step ∈ opening.plan.migrations ∧
      step.toVersion = step.fromVersion + 1

/-- A call that upgrades and finishes has run all steps. -/
theorem runsAllSteps_of_finishes
    (finishes : opening.Finishes directory)
    {manifest : Manifest}
    {steps : List Migration}
    (plans : planMigrations manifest.start opening.plan = .ok steps)
    (isPlanned :
      (opening.planned directory).1 =
        .removeTemporary ::
          upgradeEffects opening.plan.targetVersion manifest.start
            manifest.createdAt opening.upgradedNow manifest.migratingFrom
            steps) :
    ∃ front,
      RunsAllSteps opening directory manifest.start front steps
        manifest.createdAt := by
  obtain ⟨versions, own⟩ := planSteps_ok plans
  have isEffects := finishes.2
  rw [isPlanned] at isEffects
  unfold upgradeEffects at isEffects
  split_ifs at isEffects with marks
  · refine ⟨[.removeTemporary, .writeManifest (markedManifest
      opening.plan.targetVersion manifest.start manifest.createdAt)],
      isEffects, ?_, versions, own⟩
    intro written member
    obtain rfl : written = markedManifest opening.plan.targetVersion
        manifest.start manifest.createdAt := by
      simpa using member
    rfl
  · exact ⟨[.removeTemporary], isEffects, by simp, versions, own⟩

/-- Whoever finishes an unfinished upgrade has run all of its steps. -/
theorem finishes_of_pending
    (recorded : directory.Recorded)
    {start version : Nat}
    (pending : directory.Pending start version)
    (finishes : opening.Finishes directory) :
    version ≤ opening.plan.targetVersion ∧
      ∃ front steps createdAt,
        RunsAllSteps opening directory start front steps createdAt := by
  obtain ⟨current, isCurrent, isStart, isVersion⟩ := pending
  have prepared := prepares recorded opening
  generalize isPlanned : opening.planned directory = planned at prepared
  have isResult := finishes.1
  rw [isPlanned] at isResult
  cases prepared with
  | idle result settled =>
      have fresh := settled isResult current isCurrent
      rw [isStart] at fresh
      cases fresh
  | creates absent =>
      rw [isCurrent] at absent
      cases absent
  | upgrades manifest isManifest positive notNewer starts steps plans =>
      rw [isCurrent] at isManifest
      obtain ⟨sameStart, sameVersion, -⟩ :=
        migratingFrom_of_file (Option.some.inj isManifest)
      have isOwnStart : manifest.start = start := by
        unfold Manifest.start
        rw [← sameStart, isStart, Option.getD_some]
      obtain ⟨front, runs⟩ :=
        runsAllSteps_of_finishes finishes plans (by rw [isPlanned])
      rw [isOwnStart] at runs
      exact ⟨by omega, front, steps, manifest.createdAt, runs⟩

/-- A complete plan finishes an unfinished upgrade when it is not stopped. -/
theorem finishes_of_valid
    (recorded : directory.Recorded)
    {start version : Nat}
    (pending : directory.Pending start version)
    (reaches : version ≤ opening.plan.targetVersion)
    (valid : validateMigrations opening.plan = [])
    (completes : opening.stop = none) :
    opening.Finishes directory := by
  obtain ⟨current, isCurrent, isStart, isVersion⟩ := pending
  obtain ⟨manifest, isFile, sensible⟩ := recorded _ isCurrent
  obtain ⟨sameStart, sameVersion, -⟩ := migratingFrom_of_file isFile
  rw [isFile] at isCurrent
  rw [isStart] at sameStart
  have bounds := sensible start sameStart.symm
  obtain ⟨steps, plans⟩ :
      ∃ steps, planMigrations start opening.plan = .ok steps :=
    planSteps_of_valid valid bounds.1 (by omega)
  refine ⟨?_, by unfold Opening.effects; rw [completes]⟩
  have reads :=
    @readManifest_file manifest sensible directory opening.plan.targetVersion
      (by omega) (by omega)
  unfold Opening.planned prepareManifest prepareFile
  simp only [isCurrent, reads, ← sameStart, Option.getD_some]
  rw [if_neg (by simp), plans]

/-- Between its mark and its end an upgrade is recorded as unfinished. -/
theorem pending_front
    {manifest : Manifest}
    {target : Nat}
    {upgradedAt : JsString}
    {steps : List Migration}
    {front back : List ManifestEffect}
    (isSplit :
      upgradeEffects target manifest.start manifest.createdAt upgradedAt
        manifest.migratingFrom steps = front ++ back)
    (more : back ≠ [])
    (rewrites : steps.any Migration.rewrites = true)
    (isMarked : manifest.migratingFrom = none → front ≠ [])
    (isOwn :
      ∀ start, manifest.migratingFrom = some start →
        manifest.formatVersion = target)
    (isManifest : directory.manifest = some manifest.file) :
    (directory.applyAll front).Pending manifest.start target := by
  rcases applyAll_upgrade isSplit more directory with
    ⟨keeps, isEmpty⟩ | ⟨fresh, marks⟩
  · cases from? : manifest.migratingFrom with
    | none =>
        exact absurd (isEmpty rewrites from?) (isMarked from?)
    | some start =>
        refine ⟨manifest, by rw [keeps, isManifest], ?_, isOwn start from?⟩
        unfold Manifest.start
        rw [from?, Option.getD_some]
  · exact ⟨_, marks, rfl, rfl⟩

/-- A rewriting step does not come first in an upgrade that is marked. -/
theorem front_ne_nil_of_runStep
    {target start : Nat}
    {createdAt upgradedAt : JsString}
    {steps : List Migration}
    {front later : List ManifestEffect}
    {step : Migration}
    (rewrites : steps.any Migration.rewrites = true)
    (isSplit :
      upgradeEffects target start createdAt upgradedAt none steps =
        front ++ .runStep step :: later) :
    front ≠ [] := by
  rintro rfl
  unfold upgradeEffects at isSplit
  rw [rewrites] at isSplit
  cases isSplit

/-- The upgrade that a call is in when it starts a rewriting step. -/
structure Upgrading
    (opening : Opening)
    (directory : DataDirectory)
    (manifest : Manifest)
    (steps : List Migration) : Prop where
  isManifest : directory.manifest = some manifest.file
  plans : planMigrations manifest.start opening.plan = .ok steps
  planned :
    opening.planned directory =
      (.removeTemporary ::
        upgradeEffects opening.plan.targetVersion manifest.start
          manifest.createdAt opening.upgradedNow manifest.migratingFrom steps,
        .ok ())
  rewrites : steps.any Migration.rewrites = true
  notNewer : manifest.formatVersion ≤ opening.plan.targetVersion

/-- A rewriting step is started in an upgrade. -/
theorem upgrading_of_starts
    (recorded : directory.Recorded)
    {before later : List ManifestEffect}
    {step : Migration}
    (isPlan :
      (opening.planned directory).1 = before ++ .runStep step :: later) :
    ∃ manifest steps front,
      Upgrading opening directory manifest steps ∧
        before = .removeTemporary :: front ∧
        upgradeEffects opening.plan.targetVersion manifest.start
            manifest.createdAt opening.upgradedNow manifest.migratingFrom
            steps =
          front ++ .runStep step :: later := by
  have prepared := prepares recorded opening
  generalize isPlanned : opening.planned directory = planned
    at prepared isPlan
  have isRun : ManifestEffect.runStep step ∈ planned.1 := by
    rw [isPlan]
    simp
  cases prepared with
  | idle result settled =>
      simp at isRun
  | creates absent =>
      simp at isRun
  | upgrades manifest isManifest positive notNewer starts steps plans =>
      cases before with
      | nil =>
          cases isPlan
      | cons first front =>
          obtain ⟨rfl, isTail⟩ := List.cons.inj isPlan
          refine ⟨manifest, steps, front, ⟨isManifest, plans, isPlanned, ?_,
            notNewer⟩, rfl, isTail⟩
          exact rewrites_of_runStep (by simpa using isRun)

/-- An upgrade that goes on is recorded with the call's own target. -/
theorem isOwn_of_resumesOwn
    {manifest : Manifest}
    {steps : List Migration}
    (upgrading : Upgrading opening directory manifest steps)
    (resumesOwn : opening.ResumesOwn directory)
    (start : Nat)
    (isStart : manifest.migratingFrom = some start) :
    manifest.formatVersion = opening.plan.targetVersion := by
  have notNewer := upgrading.notNewer
  by_contra other
  have isOwnStart : manifest.start = start := by
    unfold Manifest.start
    rw [isStart, Option.getD_some]
  have none :=
    resumesOwn manifest upgrading.isManifest start isStart (by omega) steps
      (isOwnStart ▸ upgrading.plans)
  rw [upgrading.rewrites] at none
  cases none

/-- What holds when a rewriting step is started, and after that call. -/
structure Marked
    (opening : Opening)
    (directory during : DataDirectory)
    (start : Nat) : Prop where
  during : during.Pending start opening.plan.targetVersion
  unfinished :
    ¬ opening.Finishes directory →
      (opening.after directory).Pending start opening.plan.targetVersion
  atLeast : (opening.after directory).AtLeast opening.plan.targetVersion
  finished :
    opening.Finishes directory →
      ∃ front steps createdAt,
        RunsAllSteps opening directory start front steps createdAt

/-- A rewriting step is started in an upgrade that is marked. -/
theorem marked_of_starts
    (recorded : directory.Recorded)
    (resumesOwn : opening.ResumesOwn directory)
    {step : Migration}
    {during : DataDirectory}
    (starts : opening.Starts directory step during) :
    ∃ manifest : Manifest, directory.manifest = some manifest.file ∧
      Marked opening directory during manifest.start := by
  obtain ⟨before, later, isEffects, rfl⟩ := starts
  obtain ⟨back, isSplit⟩ := effects_split opening directory
  have isPlan :
      (opening.planned directory).1 =
        before ++ .runStep step :: (later ++ back) := by
    rw [isSplit, isEffects]
    simp
  obtain ⟨manifest, steps, front, upgrading, rfl, isTail⟩ :=
    upgrading_of_starts recorded isPlan
  have isOwn := isOwn_of_resumesOwn upgrading resumesOwn
  have isAfter :
      (opening.after directory).manifest =
        (directory.applyAll (opening.effects directory)).manifest := rfl
  have unfinished :
      ¬ opening.Finishes directory →
        (opening.after directory).Pending manifest.start
          opening.plan.targetVersion := by
    intro stops
    have more : back ≠ [] := by
      rintro rfl
      refine stops ⟨by rw [upgrading.planned], ?_⟩
      rw [isSplit, List.append_nil]
    have isRest :
        upgradeEffects opening.plan.targetVersion manifest.start
            manifest.createdAt opening.upgradedNow manifest.migratingFrom
            steps =
          (front ++ .runStep step :: later) ++ back := by
      simpa using isTail
    obtain ⟨current, isCurrent, isBoth⟩ :=
      @pending_front (directory.apply .removeTemporary) _ _ _ _ _ _
        isRest more upgrading.rewrites (by simp) isOwn upgrading.isManifest
    refine ⟨current, ?_, isBoth⟩
    rw [isAfter, isEffects]
    exact isCurrent
  refine ⟨manifest, upgrading.isManifest, ?_, unfinished, ?_, ?_⟩
  · refine @pending_front (directory.apply .removeTemporary) _ _ _ _ _ _
      isTail (by simp) upgrading.rewrites ?_ isOwn upgrading.isManifest
    intro fresh
    rw [fresh] at isTail
    exact front_ne_nil_of_runStep upgrading.rewrites isTail
  · by_cases finishes : opening.Finishes directory
    · refine ⟨finishedManifest opening.plan.targetVersion manifest.start
        manifest.createdAt opening.upgradedNow, ?_, le_refl _⟩
      rw [isAfter, finishes.2, upgrading.planned]
      exact applyAll_upgradeEffects _
    · obtain ⟨current, isCurrent, -, isVersion⟩ := unfinished finishes
      exact ⟨current, isCurrent, isVersion.ge⟩
  · intro finishes
    obtain ⟨front, runs⟩ :=
      runsAllSteps_of_finishes finishes upgrading.plans
        (by rw [upgrading.planned])
    exact ⟨front, steps, manifest.createdAt, runs⟩

end Prepare

section Runs

variable
  {directory : DataDirectory}

/-- A directory is in order after any openings. -/
theorem recorded_run
    (recorded : directory.Recorded)
    (openings : List Opening) :
    (directory.run openings).Recorded := by
  unfold DataDirectory.run
  induction openings generalizing directory with
  | nil =>
      exact recorded
  | cons opening rest inductionHypothesis =>
      exact inductionHypothesis (recorded_after recorded opening)

/-- No openings lower the version of the manifest. -/
theorem atLeast_run
    (recorded : directory.Recorded)
    {version : Nat}
    (atLeast : directory.AtLeast version)
    (openings : List Opening) :
    (directory.run openings).AtLeast version := by
  unfold DataDirectory.run
  induction openings generalizing directory with
  | nil =>
      exact atLeast
  | cons opening rest inductionHypothesis =>
      exact inductionHypothesis (recorded_after recorded opening)
        (atLeast_after recorded atLeast opening)

/-- None of some openings finishes. -/
def DataDirectory.NoneFinishes
    (directory : DataDirectory)
    (openings : List Opening) : Prop :=
  ∀ before opening after, openings = before ++ opening :: after →
    ¬ opening.Finishes (directory.run before)

/-- An unfinished upgrade stays until an opening finishes it. -/
theorem pending_run
    (recorded : directory.Recorded)
    {start version : Nat}
    (pending : directory.Pending start version)
    {openings : List Opening}
    (noneFinishes : directory.NoneFinishes openings) :
    (directory.run openings).Pending start version := by
  induction openings generalizing directory with
  | nil =>
      exact pending
  | cons opening rest inductionHypothesis =>
      refine inductionHypothesis (recorded_after recorded opening)
        (pending_after recorded pending (noneFinishes [] opening rest rfl)) ?_
      intro before other later isRest
      exact noneFinishes (opening :: before) other later (by rw [isRest]; rfl)

/-- What upgrades have to keep to over the life of a directory. -/
structure UpgradeSafe
    (directory : DataDirectory)
    (opening : Opening)
    (later : List Opening)
    (during : DataDirectory)
    (start : Nat) : Prop where
  marked :
    during.Pending start opening.plan.targetVersion
  refused :
    ∀ between other rest, later = between ++ other :: rest →
      other.plan.targetVersion < opening.plan.targetVersion →
        ∃ message,
          other.planned ((opening.after directory).run between) =
            ([.removeTemporary], .error (unsupportedFormat message))
  finished :
    opening.Finishes directory →
      ∃ front steps createdAt,
        RunsAllSteps opening directory start front steps createdAt
  resumed :
    ¬ opening.Finishes directory →
      ∀ between other rest, later = between ++ other :: rest →
        (opening.after directory).NoneFinishes between →
          (other.Finishes ((opening.after directory).run between) →
            opening.plan.targetVersion ≤ other.plan.targetVersion ∧
            ∃ front steps createdAt,
              RunsAllSteps other ((opening.after directory).run between) start
                front steps createdAt) ∧
          (opening.plan.targetVersion ≤ other.plan.targetVersion →
            other.stop = none →
              other.Finishes ((opening.after directory).run between))

/-- Upgrades are safe over any openings, if none of them takes an unfinished
upgrade further than it was recorded to go. -/
theorem upgradeSafe_run
    (recorded : directory.Recorded)
    {openings : List Opening}
    (valid : ∀ opening ∈ openings, validateMigrations opening.plan = [])
    (resumeOwn :
      ∀ before opening later, openings = before ++ opening :: later →
        opening.ResumesOwn (directory.run before))
    {before later : List Opening}
    {opening : Opening}
    (isSplit : openings = before ++ opening :: later)
    {step : Migration}
    {during : DataDirectory}
    (starts : opening.Starts (directory.run before) step during) :
    ∃ manifest : Manifest,
      (directory.run before).manifest = some manifest.file ∧
        UpgradeSafe (directory.run before) opening later during
          manifest.start := by
  have recordedBefore := recorded_run recorded before
  obtain ⟨manifest, isManifest, marked⟩ :=
    marked_of_starts recordedBefore (resumeOwn before opening later isSplit)
      starts
  have recordedAfter := recorded_after recordedBefore opening
  refine ⟨manifest, isManifest, marked.during, ?_, marked.finished, ?_⟩
  · intro between other rest isLater below
    exact planned_of_newer (atLeast_run recordedAfter marked.atLeast between)
      below
  · intro stops between other rest isLater noneFinishes
    have pending :=
      pending_run recordedAfter (marked.unfinished stops) noneFinishes
    have recordedThen := recorded_run recordedAfter between
    refine ⟨fun finishes => finishes_of_pending recordedThen pending finishes,
      fun reaches completes => ?_⟩
    refine finishes_of_valid recordedThen pending reaches ?_ completes
    exact valid other (by simp [isSplit, isLater])

/-- A build that has a rewriting step from every version. -/
def rewritingBuild (target : Nat) (stop : Option Nat) : Opening where
  plan :=
    { targetVersion := target
      migrations := (List.range' 1 (target - 1)).map fun version =>
        { fromVersion := version
          toVersion := version + 1
          description := utf16 "Rewrite the files."
          rewrites := true } }
  createdNow := utf16 "2024"
  upgradedNow := utf16 "2025"
  stop := stop
  leavesTemporary := false

/-- A directory of the first version. -/
def firstDirectory : DataDirectory where
  root := utf16 "data"
  manifest := some ({ formatVersion := 1
                      createdAt := utf16 "2023" } : Manifest).file
  temporary := false
  hasLogData := true

/-- The first directory is one that a build wrote. -/
theorem recorded_firstDirectory : firstDirectory.Recorded := by
  intro file isFile
  refine ⟨_, (Option.some.inj isFile).symm, ?_⟩
  intro version isVersion
  cases isVersion

/-- A build that stops in its first step and then goes on. -/
theorem upgradeSafe_run_resumed :
    ∃ manifest : Manifest,
      (firstDirectory.run []).manifest = some manifest.file ∧
        UpgradeSafe (firstDirectory.run []) (rewritingBuild 3 (some 4))
          [rewritingBuild 3 none]
          (firstDirectory.applyAll
            [.removeTemporary,
              .writeManifest (markedManifest 3 1 (utf16 "2023")),
              .announce ((rewritingBuild 3 none).plan.migrations.head
                (by decide))])
          manifest.start := by
  refine @upgradeSafe_run firstDirectory recorded_firstDirectory
    [rewritingBuild 3 (some 4), rewritingBuild 3 none] ?_ ?_ [] _ _ rfl
    ((rewritingBuild 3 none).plan.migrations.head (by decide)) _
    ⟨_, [], by decide +kernel, rfl⟩
  · decide +kernel
  · intro before opening later isSplit manifest isManifest start isStart below
    rcases before with _ | ⟨first, _ | ⟨second, before⟩⟩
    · obtain ⟨same, -⟩ := migratingFrom_of_file (Option.some.inj isManifest)
      rw [isStart] at same
      cases same
    · obtain ⟨rfl, isRest⟩ := List.cons.inj isSplit
      obtain ⟨rfl, -⟩ := List.cons.inj isRest
      have isMarked :
          (firstDirectory.run [rewritingBuild 3 (some 4)]).manifest =
            some (markedManifest 3 1 (utf16 "2023")).file := by
        decide +kernel
      rw [isMarked] at isManifest
      obtain ⟨-, same, -⟩ :=
        migratingFrom_of_file (Option.some.inj isManifest)
      rw [← same] at below
      exact absurd below (lt_irrefl 3)
    · simp at isSplit

/-- A newer build takes over an upgrade to version 3, runs its own last step
and stops; the older build opens the directory after that. -/
theorem not_upgradeSafe_taken :
    firstDirectory.Recorded ∧
      (∀ opening ∈ [rewritingBuild 3 (some 4), rewritingBuild 5 (some 9),
          rewritingBuild 3 none],
        validateMigrations opening.plan = []) ∧
      (∃ step during,
        (rewritingBuild 5 (some 9)).Starts
            (firstDirectory.run [rewritingBuild 3 (some 4)]) step during ∧
          step.fromVersion = 4 ∧
          ∀ start,
            ¬ UpgradeSafe (firstDirectory.run [rewritingBuild 3 (some 4)])
              (rewritingBuild 5 (some 9)) [rewritingBuild 3 none] during
              start) ∧
      (rewritingBuild 3 none).Finishes
        (firstDirectory.run
          [rewritingBuild 3 (some 4), rewritingBuild 5 (some 9)]) := by
  refine ⟨recorded_firstDirectory, by decide +kernel,
    ⟨(rewritingBuild 5 none).plan.migrations.getLast (by decide), _,
      ⟨((rewritingBuild 5 (some 8)).effects
        (firstDirectory.run [rewritingBuild 3 (some 4)])), [],
        by decide +kernel, rfl⟩, rfl, ?_⟩, by decide +kernel⟩
  intro start safe
  obtain ⟨manifest, isManifest, -, isVersion⟩ := safe.marked
  have isMarked :
      ((firstDirectory.run [rewritingBuild 3 (some 4)]).applyAll
        ((rewritingBuild 5 (some 8)).effects
          (firstDirectory.run [rewritingBuild 3 (some 4)]))).manifest =
        some (markedManifest 3 1 (utf16 "2023")).file := by
    decide +kernel
  rw [isMarked] at isManifest
  obtain ⟨-, same, -⟩ := migratingFrom_of_file (Option.some.inj isManifest)
  rw [← same] at isVersion
  exact absurd isVersion (by decide)

end Runs

end SinterDb
