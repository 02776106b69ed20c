import SinterDb.Lib.Bytes

namespace SinterDb

/-!
# File trees

Directories, files and links, found by the names on the way from the root.  A
change at a path is seen at that path and below it, and nowhere else.  A path
that goes over links leads to a real path, one that goes over directories only.
-/

/--
A file with its contents, a directory with its entries, or a symbolic link with
the absolute path that it leads to.  Sockets, pipes and devices are `special`.
-/
inductive FileTree (Name : Type) where
  | file (bytes : Bytes)
  | directory (entries : List (Name × FileTree Name))
  | link (target : List Name)
  | special
  deriving Repr

namespace FileTree

variable {Name : Type}

/-- Whether a tree is a directory. -/
def isDirectory : FileTree Name → Bool
  | .directory _ => true
  | _ => false

/-- The contents of a file or a directory, of which a directory has none. -/
def contents? : FileTree Name → Option (Option Bytes)
  | .file bytes => some (some bytes)
  | .directory _ => some none
  | _ => none

variable [DecidableEq Name]

/-- The entries of a directory after one of them has changed. -/
def setEntry
    (entries : List (Name × FileTree Name))
    (name : Name)
    (node : Option (FileTree Name)) : List (Name × FileTree Name) :=
  let others := entries.filter fun entry => !decide (entry.1 = name)
  match node with
  | none => others
  | some node => (name, node) :: others

/-- What stands at a path. -/
def get : FileTree Name → List Name → Option (FileTree Name)
  | node, [] => some node
  | .directory entries, name :: path =>
      (entries.lookup name).bind fun node => node.get path
  | _, _ :: _ => none

/--
A tree after what stands at a path has changed.  Nothing changes where the
directories on the way are missing, and the root stays.
-/
def update
    (change : Option (FileTree Name) → Option (FileTree Name)) :
    FileTree Name → List Name → FileTree Name
  | node, [] => node
  | .directory entries, [name] =>
      .directory (setEntry entries name (change (entries.lookup name)))
  | .directory entries, name :: next :: path =>
      match entries.lookup name with
      | none => .directory entries
      | some node =>
          .directory
            (setEntry entries name (some (node.update change (next :: path))))
  | node, _ :: _ => node

/-- The contents of the file at a path. -/
def fileAt (node : FileTree Name) (path : List Name) : Option Bytes :=
  match node.get path with
  | some (.file bytes) => some bytes
  | _ => none

/-- Whether there is a directory at a path. -/
def hasDirectory (node : FileTree Name) (path : List Name) : Bool :=
  (node.get path).any isDirectory

/-- A path that is walked from a directory, up to the first link on it. -/
def walkWith
    (jump : List Name → Option (List Name))
    (root : FileTree Name) : List Name → List Name → Option (List Name)
  | start, [] => some start
  | start, name :: path =>
      match root.get (start ++ [name]) with
      | some (.link target) => jump (target ++ path)
      | _ => walkWith jump root (start ++ [name]) path

/-- A path that is walked over at most so many links. -/
def followLinks (root : FileTree Name) : Nat → List Name → Option (List Name)
  | 0 => walkWith (fun _ => none) root []
  | links + 1 => walkWith (followLinks root links) root []

/-- How many links a path may go over. -/
def maxLinks : Nat := 40

/-- The real path that a path leads to, also where nothing stands there. -/
def real (root : FileTree Name) (path : List Name) : Option (List Name) :=
  root.followLinks maxLinks path

/-- The real path of an entry, which may itself be a link. -/
def place (root : FileTree Name) (path : List Name) : Option (List Name) :=
  match path.getLast? with
  | none => some []
  | some name => (root.real path.dropLast).map fun parent => parent ++ [name]

/-- What a path leads to. -/
def stat (root : FileTree Name) (path : List Name) : Option (FileTree Name) :=
  (root.real path).bind root.get

/-- A file that is found has its contents. -/
theorem fileAt_eq_some_iff
    {node : FileTree Name}
    {path : List Name}
    {bytes : Bytes} :
    node.fileAt path = some bytes ↔ node.get path = some (.file bytes) := by
  unfold fileAt
  cases node.get path with
  | none =>
      simp
  | some found =>
      cases found <;> simp

/-- Names other than the one asked for do not matter. -/
theorem lookup_filter_ne
    (entries : List (Name × FileTree Name))
    {name other : Name}
    (distinct : other ≠ name) :
    (entries.filter fun entry => !decide (entry.1 = name)).lookup other =
      entries.lookup other := by
  induction entries with
  | nil =>
      rfl
  | cons entry entries ih =>
      rcases entry with ⟨key, node⟩
      by_cases kept : key = name
      · subst kept
        simp [List.lookup_cons, beq_false_of_ne distinct, ih]
      · by_cases found : other = key
        · subst found
          simp [kept]
        · simp [kept, List.lookup_cons, beq_false_of_ne found, ih]

/-- A name that is filtered out is not found. -/
theorem lookup_filter_self
    (entries : List (Name × FileTree Name))
    (name : Name) :
    (entries.filter fun entry => !decide (entry.1 = name)).lookup name =
      none := by
  rw [List.lookup_eq_none_iff]
  intro entry kept
  have differs := (List.mem_filter.mp kept).2
  simp only [Bool.not_eq_true', decide_eq_false_iff_not] at differs
  simpa using Ne.symm differs

@[simp] theorem lookup_setEntry_self
    (entries : List (Name × FileTree Name))
    (name : Name)
    (node : Option (FileTree Name)) :
    (setEntry entries name node).lookup name = node := by
  cases node with
  | none =>
      exact lookup_filter_self entries name
  | some node =>
      simp [setEntry]

theorem lookup_setEntry_ne
    (entries : List (Name × FileTree Name))
    {name other : Name}
    (distinct : other ≠ name)
    (node : Option (FileTree Name)) :
    (setEntry entries name node).lookup other = entries.lookup other := by
  cases node with
  | none =>
      exact lookup_filter_ne entries distinct
  | some node =>
      simp [setEntry, List.lookup_cons, beq_false_of_ne distinct,
        lookup_filter_ne entries distinct]

@[simp] theorem get_nil (node : FileTree Name) : node.get [] = some node := by
  cases node <;> rfl

/-- Only a directory has something below it. -/
theorem get_cons_of_not_directory
    {node : FileTree Name}
    (leaf : node.isDirectory = false)
    (name : Name)
    (path : List Name) :
    node.get (name :: path) = none := by
  cases node with
  | directory entries =>
      cases leaf
  | _ =>
      rfl

@[simp] theorem get_directory_cons
    (entries : List (Name × FileTree Name))
    (name : Name)
    (path : List Name) :
    (FileTree.directory entries).get (name :: path) =
      (entries.lookup name).bind fun node => node.get path :=
  rfl

/-- A path goes on from where its first part ends. -/
theorem get_append
    (node : FileTree Name)
    (first second : List Name) :
    node.get (first ++ second) =
      (node.get first).bind fun inner => inner.get second := by
  induction first generalizing node with
  | nil =>
      simp
  | cons name first ih =>
      cases node with
      | directory entries =>
          simp only [List.cons_append, get_directory_cons, Option.bind_assoc]
          congr 1
          funext inner
          exact ih inner
      | _ =>
          rfl

/-- Below a path where nothing stands there is nothing. -/
theorem get_append_of_none
    {node : FileTree Name}
    {path : List Name}
    (missing : node.get path = none)
    (rest : List Name) :
    node.get (path ++ rest) = none := by
  rw [get_append, missing]
  rfl

/-- What a change makes of its own path and what is below it. -/
theorem get_update_append
    (change : Option (FileTree Name) → Option (FileTree Name))
    {node : FileTree Name}
    {parent : List Name}
    {name : Name}
    {entries : List (Name × FileTree Name)}
    (exists_parent : node.get parent = some (.directory entries))
    (rest : List Name) :
    (node.update change (parent ++ [name])).get (parent ++ name :: rest) =
      (change (entries.lookup name)).bind fun inner => inner.get rest := by
  induction parent generalizing node with
  | nil =>
      simp only [get_nil, Option.some.injEq] at exists_parent
      subst exists_parent
      simp [update]
  | cons first parent ih =>
      cases node with
      | directory outer =>
          rw [get_directory_cons] at exists_parent
          obtain ⟨inner, found, exists_inner⟩ :=
            Option.bind_eq_some_iff.mp exists_parent
          have again := ih exists_inner
          cases parent with
          | nil =>
              simpa [update, found] using again
          | cons second parent =>
              simpa [update, found] using again
      | _ =>
          cases exists_parent

/-- A directory has entries. -/
theorem exists_entries
    {node : FileTree Name}
    {path : List Name}
    (there : node.hasDirectory path) :
    ∃ entries, node.get path = some (.directory entries) := by
  unfold hasDirectory at there
  cases found : node.get path with
  | none =>
      simp [found] at there
  | some inner =>
      cases inner with
      | directory entries =>
          exact ⟨entries, rfl⟩
      | _ =>
          simp [found, isDirectory] at there

/-- Something stands in a directory only. -/
theorem hasDirectory_of_get
    {node : FileTree Name}
    {path : List Name}
    {name : Name}
    (there : node.get (path ++ [name]) ≠ none) :
    node.hasDirectory path = true := by
  rw [get_append] at there
  unfold hasDirectory
  cases found : node.get path with
  | none =>
      simp [found] at there
  | some inner =>
      cases inner with
      | directory entries =>
          rfl
      | _ =>
          exact absurd (get_cons_of_not_directory rfl name []) <| by
            simpa [found] using there

/-- What stands in a directory is one of its entries. -/
theorem mem_names_of_get
    {node : FileTree Name}
    {path : List Name}
    {name : Name}
    {entries : List (Name × FileTree Name)}
    (found : node.get path = some (.directory entries))
    (there : node.get (path ++ [name]) ≠ none) :
    name ∈ entries.map Prod.fst := by
  rw [get_append, found] at there
  by_contra missing
  have unlisted : entries.lookup name = none := by
    rw [List.lookup_eq_none_iff]
    rintro ⟨other, inner⟩ member
    rw [bne_iff_ne]
    rintro rfl
    exact missing (List.mem_map_of_mem member)
  simp [unlisted] at there

/-- What a change makes of its own path. -/
theorem get_update_self
    (change : Option (FileTree Name) → Option (FileTree Name))
    {node : FileTree Name}
    {parent : List Name}
    (exists_parent : node.hasDirectory parent)
    (name : Name) :
    (node.update change (parent ++ [name])).get (parent ++ [name]) =
      change (node.get (parent ++ [name])) := by
  obtain ⟨entries, found⟩ := exists_entries exists_parent
  have before : node.get (parent ++ [name]) = entries.lookup name := by
    rw [get_append, found]
    simp
  rw [get_update_append change found [], before]
  simp

/-- A change is not seen in what is not at or below its path. -/
theorem contents_get_update
    (change : Option (FileTree Name) → Option (FileTree Name))
    (node : FileTree Name)
    {path other : List Name}
    (outside : ¬ path <+: other) :
    ((node.update change path).get other).map contents? =
      (node.get other).map contents? := by
  fun_induction update change node path generalizing other with
  | case1 node =>
      exact absurd List.nil_prefix outside
  | case2 entries name =>
      cases other with
      | nil =>
          rfl
      | cons first other =>
          have distinct : first ≠ name := by
            rintro rfl
            exact outside (by simp)
          simp [lookup_setEntry_ne entries distinct]
  | case3 entries name next path missing =>
      rfl
  | case4 entries name next path node found ih =>
      cases other with
      | nil =>
          rfl
      | cons first other =>
          by_cases same : first = name
          · subst same
            have inside : ¬ next :: path <+: other := by
              intro inside
              exact outside (List.cons_prefix_cons.mpr ⟨rfl, inside⟩)
            simpa [found] using ih inside
          · simp [lookup_setEntry_ne entries same]
  | case5 node name path leaf =>
      rfl

/-- After a removal, a path has what it had or nothing. -/
theorem get_remove
    (node : FileTree Name)
    (path other : List Name) :
    (node.update (fun _ => none) path).get other = none ∨
      ((node.update (fun _ => none) path).get other).map contents? =
        (node.get other).map contents? := by
  by_cases inside : path <+: other
  · induction path generalizing node other with
    | nil =>
        exact .inr (by cases node <;> rfl)
    | cons name path ih =>
        obtain ⟨rest, rfl⟩ := inside
        cases node with
        | directory entries =>
            cases path with
            | nil =>
                exact .inl (by simp [update])
            | cons next path =>
                cases found : entries.lookup name with
                | none =>
                    exact .inl (by simp [update, found])
                | some inner =>
                    simpa [update, found] using
                      ih inner (next :: path ++ rest) (List.prefix_append _ _)
        | _ =>
            rw [update]
            · exact .inl rfl
            all_goals simp
  · exact .inr (contents_get_update _ node inside)

/-- After a removal, nothing stands at its path. -/
theorem get_remove_self
    (node : FileTree Name)
    {path : List Name}
    (below : path ≠ []) :
    (node.update (fun _ => none) path).get path = none := by
  obtain ⟨parent, name, rfl⟩ : ∃ parent name, path = parent ++ [name] :=
    ⟨path.dropLast, path.getLast below,
      (List.dropLast_append_getLast below).symm⟩
  by_cases there : node.hasDirectory parent = true
  · exact get_update_self _ there name
  · have missing : node.get (parent ++ [name]) = none := by
      by_contra present
      exact there (hasDirectory_of_get present)
    rcases get_remove node (parent ++ [name]) (parent ++ [name]) with
      gone | same
    · exact gone
    · rw [missing] at same
      exact Option.map_eq_none_iff.mp same

/-- A step at the end of a walk, when it is one at the end of a jump. -/
theorem walkWith_append
    {jump : List Name → Option (List Name)}
    {root : FileTree Name}
    {start path found : List Name}
    {name : Name}
    (jumped :
      ∀ rest, jump (rest ++ [name]) = some found →
        ∃ inner, jump rest = some inner ∧
          ((∃ target, root.get (inner ++ [name]) = some (.link target)) ∨
            found = inner ++ [name]))
    (walked : walkWith jump root start (path ++ [name]) = some found) :
    ∃ inner, walkWith jump root start path = some inner ∧
      ((∃ target, root.get (inner ++ [name]) = some (.link target)) ∨
        found = inner ++ [name]) := by
  induction path generalizing start with
  | nil =>
      refine ⟨start, rfl, ?_⟩
      rw [List.nil_append, walkWith] at walked
      split at walked
      · next target linked =>
          exact .inl ⟨target, linked⟩
      · rw [walkWith, Option.some.injEq] at walked
        exact .inr walked.symm
  | cons first path ih =>
      rw [List.cons_append, walkWith] at walked
      rw [walkWith]
      split at walked
      · next target linked =>
          exact jumped (target ++ path) (by simpa using walked)
      · exact ih walked

/-- The last name on a path leads on from where the others lead. -/
theorem followLinks_append
    {root : FileTree Name}
    {links : Nat}
    {path found : List Name}
    {name : Name}
    (followed : root.followLinks links (path ++ [name]) = some found) :
    ∃ inner, root.followLinks links path = some inner ∧
      ((∃ target, root.get (inner ++ [name]) = some (.link target)) ∨
        found = inner ++ [name]) := by
  induction links generalizing path found with
  | zero =>
      exact walkWith_append (fun _ absurd => by cases absurd) followed
  | succ links ih =>
      exact walkWith_append (fun _ => ih) followed

/-- What stands where a path leads to stands in a directory. -/
theorem hasDirectory_of_stat
    {root : FileTree Name}
    {path inner : List Name}
    {name : Name}
    (there : root.stat (path ++ [name]) ≠ none)
    (leads : root.real path = some inner) :
    root.hasDirectory inner = true := by
  obtain ⟨node, found⟩ := Option.ne_none_iff_exists'.mp there
  obtain ⟨last, followed, present⟩ := Option.bind_eq_some_iff.mp found
  obtain ⟨other, same, kind⟩ := followLinks_append followed
  obtain rfl : other = inner := by
    rw [real, same] at leads
    exact Option.some.inj leads
  have entered : root.get (other ++ [name]) ≠ none := by
    rcases kind with ⟨target, linked⟩ | rfl
    · simp [linked]
    · simp [present]
  exact hasDirectory_of_get entered

/-- A name that is no link ends a walk, when it ends a jump. -/
theorem walkWith_append_of_some
    {jump : List Name → Option (List Name)}
    {root : FileTree Name}
    {start path inner : List Name}
    {name : Name}
    (unlinked : ∀ target, root.get (inner ++ [name]) ≠ some (.link target))
    (jumped :
      ∀ rest, jump rest = some inner →
        jump (rest ++ [name]) = some (inner ++ [name]))
    (walked : walkWith jump root start path = some inner) :
    walkWith jump root start (path ++ [name]) = some (inner ++ [name]) := by
  induction path generalizing start with
  | nil =>
      rw [walkWith, Option.some.injEq] at walked
      subst walked
      rw [List.nil_append, walkWith]
      split
      · next target linked =>
          exact absurd linked (unlinked target)
      · rfl
  | cons first path ih =>
      rw [walkWith] at walked
      rw [List.cons_append, walkWith]
      split at walked
      · next target linked =>
          simpa using jumped (target ++ path) walked
      · exact ih walked

/-- A path leads to its own place when no link stands there. -/
theorem followLinks_append_of_some
    {root : FileTree Name}
    {links : Nat}
    {path inner : List Name}
    {name : Name}
    (unlinked : ∀ target, root.get (inner ++ [name]) ≠ some (.link target))
    (followed : root.followLinks links path = some inner) :
    root.followLinks links (path ++ [name]) = some (inner ++ [name]) := by
  induction links generalizing path with
  | zero =>
      exact walkWith_append_of_some unlinked (fun _ absurd => by cases absurd)
        followed
  | succ links ih =>
      exact walkWith_append_of_some unlinked (fun _ => ih) followed

/-- What stands at the place of a path, if it is no link. -/
theorem stat_of_place
    {root : FileTree Name}
    {path entry : List Name}
    (placed : root.place path = some entry)
    (unlinked : ∀ target, root.get entry ≠ some (.link target)) :
    root.stat path = root.get entry := by
  unfold place at placed
  split at placed
  · next empty =>
      rw [List.getLast?_eq_none_iff] at empty
      subst empty
      cases placed
      rfl
  · next name last =>
      obtain ⟨parent, followed, rfl⟩ := Option.map_eq_some_iff.mp placed
      have whole : path.dropLast ++ [name] = path := by
        rw [List.getLast?_eq_some_iff] at last
        obtain ⟨front, rfl⟩ := last
        simp
      have leads := followLinks_append_of_some unlinked followed
      rw [whole] at leads
      rw [stat, real, leads]
      rfl

/-- Only the root has the root as its place. -/
theorem eq_nil_of_place
    {root : FileTree Name}
    {path : List Name}
    (placed : root.place path = some []) :
    path = [] := by
  unfold place at placed
  split at placed
  · next empty =>
      exact List.getLast?_eq_none_iff.mp empty
  · obtain ⟨parent, -, absurd⟩ := Option.map_eq_some_iff.mp placed
    simp at absurd

end FileTree

end SinterDb
