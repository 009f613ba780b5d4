import PipeShell.Path

/-! # Files

Commands see files only through the bytes that a path leads to, or the reason why it leads to none.

* **`FileError`** — why a path cannot be read.
* **`Disk`** — what each path leads to.
* **`FileTree`** — the files and directories below the working directory, and the walk along a path
  that makes a `Disk` of them: every name but the last has to be that of an existing directory, also
  when `.`, `..` or nothing follows it. -/

namespace PipeShell

/-- Why a path leads to no bytes. -/
inductive FileError where
  /-- A name on the path does not exist. -/
  | notFound
  /-- A name on the path that should be a directory is a file. -/
  | notDirectory
  /-- The path leads to a directory. -/
  | isDirectory
  /-- A name on the path, or the path itself, is too long. -/
  | nameTooLong
  /-- The path holds the character that no path can hold. -/
  | holdsNul
  /-- The system refuses for another reason. -/
  | refused (reason : Text)
  deriving DecidableEq, Repr

/-- The error in the words of the system. -/
def FileError.message : FileError → Text
  | .notFound => "No such file or directory (os error 2)".toList
  | .notDirectory => "Not a directory (os error 20)".toList
  | .isDirectory => "Is a directory (os error 21)".toList
  | .nameTooLong => "File name too long (os error 36)".toList
  | .holdsNul => "file name contained an unexpected NUL byte".toList
  | .refused reason => reason

/-- **What each path leads to.** -/
abbrev Disk := Text → Except FileError Bytes

/-- The disk that holds what a list of paths says, and nothing else. -/
def Disk.ofList (known : List (Text × Except FileError Bytes)) : Disk := fun path =>
  match known.find? (·.1 == path) with
  | some entry => entry.2
  | none => .error .notFound

/-! ## Trees -/

/-- What a name in a directory stands for. -/
inductive Entry where
  | file (content : Bytes)
  | directory
  deriving DecidableEq, Repr

/-- The files and directories below the working directory, each under the names that lead to it. -/
structure FileTree where
  entries : List (List Text × Entry) := []
  deriving DecidableEq, Repr

/-- What some names lead to from the working directory, which is itself a directory. -/
def FileTree.entry? (t : FileTree) : List Text → Option Entry
  | [] => some .directory
  | names => (t.entries.find? (·.1 == names)).map (·.2)

/-- The tree with an entry put under some names, replacing the one that may be there. -/
def FileTree.put (t : FileTree) (names : List Text) (e : Entry) : FileTree :=
  ⟨(names, e) :: t.entries.filter (·.1 != names)⟩

/-- The tree without the entry under some names. -/
def FileTree.erase (t : FileTree) (names : List Text) : FileTree :=
  ⟨t.entries.filter (·.1 != names)⟩

/-- The tree with directories made along some names, below a directory that is there already. -/
def FileTree.makeDirectories (t : FileTree) (above : List Text) : List Text → FileTree
  | [] => t
  | name :: rest =>
    let dir := above ++ [name]
    (if (t.entry? dir).isSome then t else t.put dir .directory).makeDirectories dir rest

/-- The proper names of a path, leaving out the empty ones and those that stand for the directory
they are in. -/
def Path.names (path : Text) : List Text :=
  (Path.components path).filter fun name => name != [] && name != Path.here

/-- **Write a file**, making the directories above it. -/
def FileTree.write (t : FileTree) (path : Text) (content : Bytes) : FileTree :=
  (t.makeDirectories [] (Path.names path).dropLast).put (Path.names path) (.file content)

/-- **Remove a file.** The directories above it stay. -/
def FileTree.remove (t : FileTree) (path : Text) : FileTree := t.erase (Path.names path)

/-! ## Walking a path -/

/-- Where a walk has got to. -/
inductive Place where
  /-- Under some names of the tree. -/
  | inside (names : List Text)
  /-- In a directory above the tree, where no file is known. -/
  | above
  deriving DecidableEq, Repr

/-- What stands at a place. -/
def Place.entry? (t : FileTree) : Place → Option Entry
  | .inside names => t.entry? names
  | .above => some .directory

/-- The place that `..` leads to. -/
def Place.parent : Place → Place
  | .inside [] => .above
  | .inside names => .inside names.dropLast
  | .above => .above

/-- The longest name that a file can have, in bytes. -/
def nameLimit : Nat := 255

/-- The longest path that can be followed, in bytes. -/
def pathLimit : Nat := 4095

/-- The place that a name leads to from a directory. -/
def Place.step (p : Place) (name : Text) : Except FileError Place :=
  if name = [] ∨ name = Path.here then .ok p
  else if name = "..".toList then .ok p.parent
  else if nameLimit < name.utf8.length then .error .nameTooLong
  else match p with
    | .inside names => .ok (.inside (names ++ [name]))
    | .above => .error .notFound

/-- The place that some names lead to, one after the other. Before each step there has to be a
directory. -/
def FileTree.walk (t : FileTree) (p : Place) : List Text → Except FileError Place
  | [] => .ok p
  | name :: rest =>
    match p.entry? t with
    | none => .error .notFound
    | some (.file _) => .error .notDirectory
    | some .directory =>
      match p.step name with
      | .error e => .error e
      | .ok p => t.walk p rest

/-- **What a path leads to in the tree.** -/
def FileTree.read (t : FileTree) : Disk := fun path =>
  if '\x00' ∈ path then .error .holdsNul
  else if path = [] then .error .notFound
  else if pathLimit < path.utf8.length then .error .nameTooLong
  else
    -- nothing is known of the root, so an absolute path starts above the tree
    match t.walk (if Path.isAbsolute path then .above else .inside []) (Path.components path) with
    | .error e => .error e
    | .ok p =>
      match p.entry? t with
      | none => .error .notFound
      | some .directory => .error .isDirectory
      | some (.file content) => .ok content

/-! ## Readings of paths -/

example :
    let t := FileTree.write {} "d/f".toList [1]
    t.read "./d//f".toList = .ok [1] ∧ t.read "d/f/".toList = .error .notDirectory ∧
      t.read "d".toList = .error .isDirectory ∧ t.read "e/../d/f".toList = .error .notFound ∧
      t.read "d/../d/f".toList = .ok [1] ∧ t.read "d/f/../f".toList = .error .notDirectory := by
  refine ⟨rfl, rfl, rfl, rfl, rfl, rfl⟩

end PipeShell
