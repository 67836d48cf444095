import TrialSummary.Files.Basic

/-!
# Trees of files

A file tree holds files and directories below a working directory. Its view resolves paths name by
name: an empty name and `.` stay, `..` goes up, and any step from a file fails because a file is not
a directory. What lies outside of the working directory is a directory in which no name is known.
-/

namespace TrialSummary

/-- What a path leads to. -/
inductive FileNode where
  | file (bytes : ByteArray)
  | directory

/-- Files and directories by their names from the working directory, which itself is not listed. -/
structure FileTree where
  nodes : List (List String × FileNode) := []

namespace FileTree

/-- Where the resolution of a path stands. Names are kept with the last one first. -/
inductive Place where
  | outside
  | inside (names : List String)

/-- The node at a list of names, last name first; no names mean the working directory. -/
def node? (t : FileTree) (names : List String) : Option FileNode :=
  if names.isEmpty then some .directory
  else (t.nodes.find? fun n => n.1 == names).map Prod.snd

def step (t : FileTree) (name : String) : Place → Except ReadFault Place
  | .outside => if name = "" ∨ name = "." ∨ name = ".." then .ok .outside else .error .notFound
  | .inside names =>
    match t.node? names with
    | none => .error .notFound
    | some (.file _) => .error .notDirectory
    | some .directory =>
      if name = "" ∨ name = "." then .ok (.inside names)
      else if name = ".." then
        match names with
        | [] => .ok .outside
        | _ :: up => .ok (.inside up)
      else if (t.node? (name :: names)).isSome then .ok (.inside (name :: names))
      else .error .notFound

def names (path : String) : List String := (path.toList.splitOn '/').map String.ofList

/-- Follow a path. The empty path leads nowhere, and one that starts with a slash leads outside. -/
def resolve (t : FileTree) (path : String) : Except ReadFault Place :=
  if path.isEmpty then .error .notFound
  else
    let start := if path.toList.head? = some '/' then Place.outside else .inside []
    (names path).foldlM (fun place name => t.step name place) start

def read (t : FileTree) (path : String) : Except ReadFault ByteArray :=
  match t.resolve path with
  | .error fault => .error fault
  | .ok .outside => .error .isDirectory
  | .ok (.inside names) =>
    match t.node? names with
    | some (.file bytes) => .ok bytes
    | some .directory => .error .isDirectory
    | none => .error .notFound

/-- Whether a path leads anywhere. -/
def pathExists (t : FileTree) (path : String) : Bool :=
  match t.resolve path with
  | .error _ => false
  | .ok .outside => true
  | .ok (.inside names) => (t.node? names).isSome

theorem pathExists_of_read {t : FileTree} {path : String} {bytes : ByteArray}
    (h : t.read path = .ok bytes) : t.pathExists path = true := by
  rw [read] at h
  rw [pathExists]
  split at h
  · cases h
  · cases h
  next names _ =>
    cases hnode : t.node? names with
    | none => simp [hnode] at h
    | some node => rfl

def files (t : FileTree) : Files where
  read := t.read
  pathExists := t.pathExists
  pathExists_of_read := pathExists_of_read

/-- A step fails because a name is missing or because it goes on from a file. -/
theorem fault_of_step {t : FileTree} {name : String} {place : Place} {fault : ReadFault}
    (h : t.step name place = .error fault) : fault = .notFound ∨ fault = .notDirectory := by
  unfold step at h
  split at h <;> grind

theorem fault_of_steps {t : FileTree} {names : List String} {start : Place} {fault : ReadFault}
    (h : names.foldlM (fun place name => t.step name place) start = .error fault) :
    fault = .notFound ∨ fault = .notDirectory := by
  induction names generalizing start with
  | nil => cases h
  | cons name names ih =>
    rw [List.foldlM_cons] at h
    cases hfirst : t.step name start with
    | error e =>
      rw [hfirst] at h
      cases h
      exact fault_of_step hfirst
    | ok place =>
      rw [hfirst] at h
      exact ih h

theorem fault_of_resolve {t : FileTree} {path : String} {fault : ReadFault}
    (h : t.resolve path = .error fault) : fault = .notFound ∨ fault = .notDirectory := by
  rw [resolve] at h
  split at h
  · cases h
    exact .inl rfl
  · exact fault_of_steps h

/-- In a tree only those paths do not exist that cannot be read for one of two reasons. -/
theorem pathExists_files_eq_false_iff {t : FileTree} {path : String} :
    t.files.pathExists path = false ↔
      t.files.read path = .error .notFound ∨ t.files.read path = .error .notDirectory := by
  change t.pathExists path = false ↔ t.read path = .error .notFound ∨
    t.read path = .error .notDirectory
  rw [pathExists, read]
  cases hplace : t.resolve path with
  | error fault => simpa using fault_of_resolve hplace
  | ok place =>
    cases place with
    | outside => simp
    | inside names =>
      match hnode : t.node? names with
      | none => simp [hnode]
      | some (.file bytes) => simp [hnode]
      | some .directory => simp [hnode]

/-- The names of a path as keys of a tree, last name first. -/
def keyOf (path : String) : List String :=
  (names path).foldl (fun key name =>
    if name = "" ∨ name = "." then key else if name = ".." then key.drop 1 else name :: key) []

/-- Take away what is at a path and everything below it. -/
def remove (t : FileTree) (path : String) : FileTree :=
  ⟨t.nodes.filter fun n => !(keyOf path).isSuffixOf n.1⟩

/-- Put a directory at a list of names where nothing is yet, and at all that lead to it. -/
def makeDirectory (t : FileTree) : List String → FileTree
  | [] => t
  | name :: up =>
    let t := t.makeDirectory up
    if (t.node? (name :: up)).isSome then t else ⟨(name :: up, .directory) :: t.nodes⟩

/-- Put a file or a directory at a path, making the directories that lead to it. A file replaces
what was there, and a directory that was there stays as it is. -/
def write (t : FileTree) (path : String) (node : FileNode) : FileTree :=
  match keyOf path, node with
  | [], _ => t
  | key, .directory => t.makeDirectory key
  | key@(_ :: up), .file bytes =>
    ⟨(key, .file bytes) :: ((t.remove path).makeDirectory up).nodes⟩

end FileTree

end TrialSummary
