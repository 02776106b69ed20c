import SinterDb.Lib.Unicode
import SinterDb.Lib.FileFrame

namespace SinterDb.Backup

open Unicode

/-!
# Paths of backups

Absolute paths as the names on the way from the root, the functions of
`node:path` that a backup uses, and the test for nested directories.  They look
at the text of a path only, whatever links there are on it.
-/

/-- An absolute path. -/
abbrev Path := List JsString

/-- The character between the names of a path. -/
def slash : UInt16 := 0x2F

/-- The other character that a path may be split at. -/
def backslash : UInt16 := 0x5C

/-- The names `.` and `..`. -/
def here : JsString := utf16 "."

@[inherit_doc here]
def above : JsString := utf16 ".."

/-- One name of a path that is walked. -/
def enter (path : Path) (name : JsString) : Path :=
  if name = [] ∨ name = here then
    path
  else if name = above then
    path.dropLast
  else
    path ++ [name]

/-- `join`: a path that is walked from a directory. -/
def join (directory : Path) (text : JsString) : Path :=
  (text.splitOn slash).foldl enter directory

/-- `isAbsolute`. -/
def isAbsolute (text : JsString) : Bool :=
  text.head? = some slash

/-- `resolve` of one path, in a working directory. -/
def resolve (cwd : Path) (text : JsString) : Path :=
  join (if isAbsolute text then [] else cwd) text

/-- The names of `relative`. -/
def relativeNames : Path → Path → List JsString
  | first :: outer, second :: inner =>
      if first = second then
        relativeNames outer inner
      else
        List.replicate (outer.length + 1) above ++ second :: inner
  | outer, inner => List.replicate outer.length above ++ inner

/-- Names with slashes between them. -/
def joinNames (names : List JsString) : JsString :=
  [slash].intercalate names

/-- `relative`. -/
def relative (outer inner : Path) : JsString :=
  joinNames (relativeNames outer inner)

/-- `inside` of `assertNotNested`. -/
def inside (outer inner : Path) : Bool :=
  let path := relative outer inner
  path = [] || (!above.isPrefixOf path && !isAbsolute path)

/-- The test of `assertNotNested`. -/
def nested (first second : Path) : Bool :=
  inside first second || inside second first

/-- The text of a path with a suffix. -/
def withSuffix (path : Path) (suffix : JsString) : Path :=
  match path.getLast? with
  | none => [suffix]
  | some name => path.dropLast ++ [name ++ suffix]

/-- `split` at slashes and backslashes. -/
def splitNames (text : JsString) : List JsString :=
  (text.splitOn slash).flatMap fun name => name.splitOn backslash

/-- A path with a suffix is neither the path nor above it. -/
theorem not_prefix_withSuffix
    {path : Path}
    {suffix : JsString}
    (written : suffix ≠ [])
    (rest : path ≠ []) :
    ¬ path <+: withSuffix path suffix ∧ ¬ withSuffix path suffix <+: path := by
  obtain ⟨parent, name, rfl⟩ :
      ∃ parent name, path = parent ++ [name] :=
    ⟨path.dropLast, path.getLast rest, (List.dropLast_append_getLast rest).symm⟩
  have same : withSuffix (parent ++ [name]) suffix =
      parent ++ [name ++ suffix] := by
    simp [withSuffix]
  rw [same]
  simp [List.prefix_append_right_inj, written]

/-- A path without `..` stays below the directory that it starts in. -/
theorem prefix_join
    (directory : Path)
    {text : JsString}
    (safe : above ∉ text.splitOn slash) :
    directory <+: join directory text := by
  unfold join
  generalize text.splitOn slash = names at safe
  induction names generalizing directory with
  | nil =>
      exact List.prefix_refl directory
  | cons name names ih =>
      have other : name ≠ above := by
        rintro rfl
        exact safe (List.mem_cons_self ..)
      have step : directory <+: enter directory name := by
        unfold enter
        split
        · exact List.prefix_refl directory
        · exact List.prefix_append directory [name]
      have rest := ih (enter directory name) fun member =>
        safe (List.mem_cons_of_mem _ member)
      exact step.trans rest

/-- A name `..` between slashes is one between slashes and backslashes. -/
theorem above_mem_splitNames
    {text : JsString}
    (found : above ∈ text.splitOn slash) :
    above ∈ splitNames text := by
  refine List.mem_flatMap.mpr ⟨above, found, ?_⟩
  decide +kernel

end SinterDb.Backup
