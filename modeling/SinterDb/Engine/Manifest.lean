import SinterDb.Lib.Result
import SinterDb.Storage.Filter

namespace SinterDb

open Unicode

/-!
# The manifest and its upgrades

`prepareManifest` runs when a data directory is opened.  It is modelled as the
list of what it does to the directory, one effect after the other, and how it
ends: a process that stops on the way has done a front part of the list.
-/

/-- `Migration`; whether it rewrites files is whether it has `run`. -/
structure Migration where
  fromVersion : Nat
  toVersion : Nat
  description : JsString
  rewrites : Bool
  deriving Repr, DecidableEq

/-- `MigrationPlan`. -/
structure MigrationPlan where
  targetVersion : Nat
  migrations : List Migration
  deriving Repr, DecidableEq

/-- An `UnsupportedFormat` error. -/
def unsupportedFormat (message : JsString) : Thrown :=
  .storage ⟨.unsupportedFormat, message, none⟩

/-- A `StorageCorruptionError`. -/
def corruption (message : JsString) : Thrown :=
  .storage ⟨.corruption, message, none⟩

/-- The error of `planMigrations` at a gap. -/
def missingStep (start version : Nat) : Thrown :=
  unsupportedFormat (utf16
    (s!"This version of SinterDB cannot upgrade a data directory from storage " ++
      s!"format version {start}: there is no step from version {version} to " ++
      s!"{version + 1}. Open it with an older release that can upgrade it " ++
      "first."))

/-- The loop of `planMigrations`, with the number of steps that remain. -/
def planSteps
    (plan : MigrationPlan)
    (start : Nat) : Nat → Nat → Except Thrown (List Migration)
  | 0, _ => .ok []
  | count + 1, version =>
      match plan.migrations.find? fun step => step.fromVersion == version with
      | none => .error (missingStep start version)
      | some step =>
          if step.toVersion ≠ version + 1 then
            .error (missingStep start version)
          else do
            let later ← planSteps plan start count (version + 1)
            return step :: later

/-- `planMigrations`. -/
def planMigrations
    (start : Nat)
    (plan : MigrationPlan) : Except Thrown (List Migration) :=
  planSteps plan start (plan.targetVersion - start) start

/-- White space at the ends of a text, as `trim` removes it. -/
def isWhiteSpace (unit : UInt16) : Bool :=
  let value := unit.toNat
  (9 ≤ value && value ≤ 13) || (0x2000 ≤ value && value ≤ 0x200A) ||
    [0x20, 0xA0, 0x1680, 0x2028, 0x2029, 0x202F, 0x205F, 0x3000,
      0xFEFF].contains value

/-- The problems of one step in `validateMigrations`. -/
def stepProblems (seen : List Nat) (step : Migration) : List JsString :=
  (if step.toVersion ≠ step.fromVersion + 1 then
    [utf16 (s!"The step from {step.fromVersion} to {step.toVersion} must " ++
      "move up by exactly one version.")]
  else
    []) ++
  (if seen.contains step.fromVersion then
    [utf16 s!"There is more than one step from version {step.fromVersion}."]
  else
    []) ++
  (if step.description.all isWhiteSpace then
    [utf16 s!"The step from {step.fromVersion} has no description."]
  else
    [])

/-- The problems of all steps in `validateMigrations`. -/
def stepsProblems : List Nat → List Migration → List JsString
  | _, [] => []
  | seen, step :: rest =>
      stepProblems seen step ++
        stepsProblems (step.fromVersion :: seen) rest

/-- `validateMigrations`. -/
def validateMigrations (plan : MigrationPlan) : List JsString :=
  stepsProblems [] plan.migrations ++
    ((List.range' 1 (plan.targetVersion - 1)).filter fun version =>
      !(plan.migrations.map Migration.fromVersion).contains version).map
      fun version => utf16 s!"There is no step from version {version}."

/-- `Manifest`, apart from its constant format. -/
structure Manifest where
  formatVersion : Nat
  createdAt : JsString
  upgradedFrom : Option Nat := none
  upgradedAt : Option JsString := none
  migratingFrom : Option Nat := none
  deriving Repr, DecidableEq

/-- A field of a parsed manifest, as far as it is looked at. -/
inductive ManifestField where
  | absent
  | integer (value : Int)
  | fraction (json : JsString)
  | text (value : JsString)
  | other (json : JsString)
  deriving Repr, DecidableEq

/-- What `manifest.json` holds. -/
inductive ManifestFile where
  | invalid (reason : JsString)
  | null
  | parsed (format formatVersion createdAt migratingFrom : ManifestField)
  deriving Repr, DecidableEq

/-- `STORAGE_FORMAT`. -/
def storageFormat : JsString := utf16 "sinterdb-data"

/-- A field that holds a version, if there is one. -/
def ManifestField.ofVersion : Option Nat → ManifestField
  | none => .absent
  | some version => .integer version

/-- The file that holds a manifest. -/
def Manifest.file (manifest : Manifest) : ManifestFile :=
  .parsed (.text storageFormat) (.integer manifest.formatVersion)
    (.text manifest.createdAt) (.ofVersion manifest.migratingFrom)

/-- A data directory, as far as `prepareManifest` looks at it. -/
structure DataDirectory where
  root : JsString
  manifest : Option ManifestFile
  temporary : Bool
  hasLogData : Bool
  deriving Repr, DecidableEq

/-- The path of the manifest. -/
def DataDirectory.path (directory : DataDirectory) : JsString :=
  directory.root ++ utf16 "/manifest.json"

/-- What `JSON.stringify` makes of a field. -/
def ManifestField.json : ManifestField → JsString
  | .absent => utf16 "undefined"
  | .integer value => utf16 s!"{value}"
  | .fraction json => json
  | .text value => Json.quote value
  | .other json => json

/-- `readInterruptedUpgrade`. -/
def readInterruptedUpgrade
    (path : JsString)
    (target : Nat)
    (migratingFrom : ManifestField) : Except Thrown (Option Nat) :=
  let invalid :=
    corruption (utf16 "The manifest " ++ path ++
      utf16 " records an upgrade from an invalid version.")
  match migratingFrom with
  | .absent => .ok none
  | .integer (.ofNat version) =>
      if version < 1 ∨ target ≤ version then
        .error invalid
      else
        .ok (some version)
  | _ => .error invalid

/-- What is read from the manifest before an upgrade is planned. -/
structure ReadManifest where
  formatVersion : Nat
  createdAt : Option JsString
  interrupted : Option Nat
  deriving Repr, DecidableEq

/-- The checks of `prepareManifest` on the format and the version. -/
def readFormatVersion
    (directory : DataDirectory)
    (target : Nat)
    (format formatVersion : ManifestField) : Except Thrown Nat :=
  if format ≠ .text storageFormat then
    .error (unsupportedFormat
      (utf16 "The directory " ++ directory.root ++
        utf16 " is not a SinterDB data directory (manifest format is " ++
        format.json ++ utf16 ")."))
  else
    match formatVersion with
    | .integer (.ofNat (version + 1)) =>
        if target < version + 1 then
          .error (unsupportedFormat (utf16
            ("The data directory uses storage format version " ++
              s!"{version + 1}, but this version of SinterDB only supports up " ++
              s!"to version {target}. Upgrade SinterDB to open it.")))
        else
          .ok (version + 1)
    | .integer _ | .fraction _ =>
        .error (corruption
          (utf16 "The manifest " ++ directory.path ++
            utf16 " has an invalid format version."))
    | _ =>
        .error (corruption
          (utf16 "The manifest " ++ directory.path ++
            utf16 " has no valid format version."))

/-- The checks of `prepareManifest` on an existing manifest. -/
def readManifest
    (directory : DataDirectory)
    (target : Nat) : ManifestFile → Except Thrown ReadManifest
  | .invalid reason =>
      .error (corruption
        (utf16 "The manifest " ++ directory.path ++
          utf16 " is not valid JSON: " ++ reason ++
          utf16 ". Restore it from a backup."))
  | .null =>
      .error (.other (utf16 "Cannot read properties of null."))
  | .parsed format formatVersion createdAt migratingFrom => do
      let version ← readFormatVersion directory target format formatVersion
      let interrupted ←
        readInterruptedUpgrade directory.path target migratingFrom
      return ⟨version,
        match createdAt with
        | .text value => some value
        | _ => none,
        interrupted⟩

/-- What `prepareManifest` does to a directory. -/
inductive ManifestEffect where
  | removeTemporary
  | writeManifest (manifest : Manifest)
  | announce (step : Migration)
  | runStep (step : Migration)
  deriving Repr, DecidableEq

/-- The effects of one step of an upgrade. -/
def stepEffects (step : Migration) : List ManifestEffect :=
  .announce step :: if step.rewrites then [.runStep step] else []

/-- The effects of an upgrade. -/
def upgradeEffects
    (target start : Nat)
    (createdAt upgradedAt : JsString)
    (interrupted : Option Nat)
    (steps : List Migration) : List ManifestEffect :=
  (if steps.any Migration.rewrites && interrupted.isNone then
    [.writeManifest
      { formatVersion := target
        createdAt := createdAt
        migratingFrom := some start }]
  else
    []) ++
  (steps.flatMap stepEffects ++
    [.writeManifest
      { formatVersion := target
        createdAt := createdAt
        upgradedFrom := some start
        upgradedAt := some upgradedAt }])

/-- `prepareManifest` after the temporary file is removed, with the times that
it takes from the clock. -/
def prepareFile
    (plan : MigrationPlan)
    (createdNow upgradedNow : JsString)
    (directory : DataDirectory) : List ManifestEffect × Except Thrown Unit :=
  let target := plan.targetVersion
  match directory.manifest with
  | none =>
      if directory.hasLogData then
        ([], .error (corruption
          (utf16 "The data directory " ++ directory.root ++
            utf16 (" contains write-ahead log files but no manifest.json. " ++
              "Restore manifest.json from a backup; do not start the server " ++
              "on this directory until it is restored."))))
      else
        ([.writeManifest
          { formatVersion := target, createdAt := createdNow }], .ok ())
  | some file =>
      match readManifest directory target file with
      | .error error => ([], .error error)
      | .ok read =>
          let start := read.interrupted.getD read.formatVersion
          if start = target ∧ read.interrupted = none then
            ([], .ok ())
          else
            match planMigrations start plan with
            | .error error => ([], .error error)
            | .ok steps =>
                (upgradeEffects target start
                  (read.createdAt.getD createdNow) upgradedNow
                  read.interrupted steps, .ok ())

/-- `prepareManifest`. -/
def prepareManifest
    (plan : MigrationPlan)
    (createdNow upgradedNow : JsString)
    (directory : DataDirectory) : List ManifestEffect × Except Thrown Unit :=
  let (effects, result) := prepareFile plan createdNow upgradedNow directory
  (.removeTemporary :: effects, result)

/-- The directory after an effect; a step leaves the manifest alone. -/
def DataDirectory.apply
    (directory : DataDirectory) : ManifestEffect → DataDirectory
  | .removeTemporary => { directory with temporary := false }
  | .writeManifest manifest =>
      { directory with manifest := some manifest.file }
  | .announce _ => directory
  | .runStep _ => directory

/-- The directory after some effects. -/
def DataDirectory.applyAll
    (directory : DataDirectory)
    (effects : List ManifestEffect) : DataDirectory :=
  effects.foldl DataDirectory.apply directory

end SinterDb
